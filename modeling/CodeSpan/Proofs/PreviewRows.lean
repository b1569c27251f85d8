import CodeSpan.Display.Report
import CodeSpan.Proofs.CommandLine
import CodeSpan.Proofs.Reextraction

/-!
# The rows of a preview

Behind its header, and the warning that stands over a window, a preview has one row for every
line of its span: the number of the line, as wide as the number of the last one, and the line
itself, cut short if it is long. An extracted span covers lines of the text, so each of them has
its row.
-/

namespace CodeSpan

namespace Text

theorem length_decimal_le {m n : Nat} (h : m ≤ n) : (decimal m).length ≤ (decimal n).length := by
  have hbound : n < 10 ^ (decimal n).length :=
    (Nat.length_toDigits_le_iff (by decide) Nat.length_toDigits_pos).1 (Nat.le_refl _)
  exact (Nat.length_toDigits_le_iff (by decide) Nat.length_toDigits_pos).2
    (Nat.lt_of_le_of_lt h hbound)

theorem newline_notMem_decimal (n : Nat) : '\n' ∉ decimal n :=
  fun h => absurd (isDigit_of_mem_decimal h) (by decide)

end Text

/-- The row of a preview for a line of the text: its number, aligned with the last number, and
the line if it has at most a hundred characters, or the beginning of it. -/
def ShowsLine (last number : Nat) (line row : List Char) : Prop :=
  ∃ blanks shown,
    row = List.replicate blanks ' ' ++ Text.decimal number ++ "│ ".toList ++ shown ∧
    blanks + (Text.decimal number).length = (Text.decimal last).length ∧
    (line.length ≤ 100 → shown = line) ∧
    (100 < line.length → shown = line.take 97 ++ "...".toList) ∧
    shown.length ≤ 100 ∧ '\n' ∉ row

/-- The header of a preview, and the warning of a window. -/
def previewHead (file : Path) (span : BlockSpan) : List Char :=
  file ++ " lines ".toList ++ Text.decimal (span.startLine + 1) ++
    '-' :: Text.decimal (span.endLine + 1) ++ " (".toList ++ Text.decimal span.lineCount ++
    " lines)\n".toList ++
    if span.kind = .window then "⚠ no balanced block found; showing a fixed window\n".toList else []

/-- A preview that shows the whole of a span of a text. -/
def ShowsSpan (file : Path) (t : Source) (span : BlockSpan) (written : List Char) : Prop :=
  ∃ rows : List (List Char),
    written = previewHead file span ++ rows.flatMap (· ++ ['\n']) ∧
    rows.length = span.lineCount ∧
    ∀ k row, rows[k]? = some row → ∃ line, t.line? (span.startLine + k) = some line ∧
      ShowsLine (span.endLine + 1) (span.startLine + k + 1) line row

def rowText (row : Line) : List Char :=
  row.flatMap (·.render false)

variable {file : Path} {t : Source} {last width number : Nat} {line : List Char} {span : BlockSpan}

theorem renderLines_eq_rows (rows : List Line) :
    renderLines false rows = (rows.map rowText).flatMap (· ++ ['\n']) := by
  rw [List.flatMap_map]
  rfl

theorem rowText_previewLine (width number : Nat) (line : List Char) :
    rowText (previewLine width number line) =
      Text.padLeft width (Text.decimal number) ++ "│ ".toList ++ truncate previewWidth line := by
  simp [rowText, previewLine, spaced, Piece.text]

theorem length_previewBody (width number : Nat) (lines : List (List Char)) :
    (previewBody width number lines).length = lines.length := by
  induction lines generalizing number with
  | nil => rfl
  | cons line lines ih => rw [previewBody, List.length_cons, List.length_cons, ih]

theorem getElem?_previewBody (width number : Nat) (lines : List (List Char)) (k : Nat) :
    (previewBody width number lines)[k]? = lines[k]?.map (previewLine width (number + k)) := by
  induction lines generalizing number k with
  | nil => simp [previewBody]
  | cons line lines ih =>
      cases k with
      | zero => rfl
      | succ k =>
          rw [previewBody, List.getElem?_cons_succ, List.getElem?_cons_succ, ih,
            Nat.add_assoc, Nat.add_comm 1]

theorem mem_truncate {c : Char} (h : c ∈ truncate width line) : c ∈ line ∨ c = '.' := by
  rw [truncate] at h
  split_ifs at h
  · exact .inl h
  · rcases List.mem_append.1 h with h | h
    · exact .inl (List.mem_of_mem_take h)
    · exact .inr (by simpa using h)

theorem newline_notMem_row (h : '\n' ∉ line) :
    '\n' ∉ rowText (previewLine width number line) := by
  rw [rowText_previewLine, List.mem_append, List.mem_append, not_or, not_or]
  refine ⟨⟨?_, by decide⟩, fun htruncate => ?_⟩
  · rw [Text.padLeft, List.mem_append, not_or]
    exact ⟨fun hblank => by simp at hblank, Text.newline_notMem_decimal number⟩
  · rcases mem_truncate htruncate with hline | hdot
    · exact h hline
    · exact absurd hdot (by decide)

theorem showsLine_row (hnumber : number ≤ last) (h : '\n' ∉ line) :
    ShowsLine last number line
      (rowText (previewLine (Text.decimal last).length number line)) := by
  have hwidth := Text.length_decimal_le hnumber
  refine ⟨(Text.decimal last).length - (Text.decimal number).length, truncate previewWidth line,
    rowText_previewLine _ _ _, by omega, fun hshort => if_pos hshort,
    fun hlong => if_neg (Nat.not_le.2 hlong), ?_, newline_notMem_row h⟩
  rw [truncate]
  split_ifs with hshort
  · exact hshort
  · simp [previewWidth]

theorem renderLines_preview (file : Path) (span : BlockSpan) :
    renderLines false (preview file span) = previewHead file span ++
      ((previewBody (Text.decimal (span.endLine + 1)).length (span.startLine + 1)
        (List.splitOn '\n' span.text)).map rowText).flatMap (· ++ ['\n']) := by
  rw [← renderLines_eq_rows, preview, previewHead, BlockSpan.isFallback]
  cases span.kind <;>
    simp [renderLines, renderLine, previewHeader, windowWarning, spaced, Piece.text]

theorem showsSpan_of_covers (hsplit : t.Split) (hle : span.startLine ≤ span.endLine)
    (hlast : span.endLine < t.size) (htext : span.text = t.join span.startLine span.endLine)
    (file : Path) : ShowsSpan file t span (renderLines false (preview file span)) := by
  have hlines : List.splitOn '\n' span.text = (t.segment span.startLine span.endLine).lines := by
    rw [htext]
    exact congrArg Source.lines (Source.ofText_join hsplit hle (by omega))
  have hsize : (t.segment span.startLine span.endLine).lines.length =
      span.endLine + 1 - span.startLine := t.size_segment span.startLine hlast
  refine ⟨_, renderLines_preview file span, ?_, fun k row hrow => ?_⟩
  · rw [List.length_map, length_previewBody, hlines, hsize, BlockSpan.lineCount]
    omega
  · rw [List.getElem?_map, getElem?_previewBody, Option.map_map, hlines] at hrow
    obtain ⟨line, hline, rfl⟩ := Option.map_eq_some_iff.1 hrow
    have hk := (List.getElem?_eq_some_iff.1 hline).1
    have hin : span.startLine + k ≤ span.endLine := by omega
    rw [Source.getElem?_segment hin] at hline
    refine ⟨line, hline, ?_⟩
    rw [Nat.add_right_comm]
    exact showsLine_row (by omega) (hsplit line (List.mem_of_getElem? hline))

/-- Without colours, the preview of an extracted span shows the whole span: it has the header, the
warning if the span is a window, and as many rows as the span has lines, each with the number of
its line, aligned with the number of the last line, and with the line or its first 97
characters. -/
theorem preview_shows_span (d : Dialect) (text : List Char) (start : Nat) (span : BlockSpan)
    (h : extract (.ofText text) start d = some (.ok span)) (file : Path) :
    ShowsSpan file (.ofText text) span (renderLines false (preview file span)) := by
  obtain ⟨hstart, hle, hlast, htext⟩ := bounds_of_extract h
  rw [← hstart] at hle htext
  exact showsSpan_of_covers (Source.split_ofText text) hle hlast htext file

theorem preview_shows_span_brace :
    let text := List.replicate 9 '\n' ++ List.replicate 101 'é'
    ∃ windowed, Dialect.brace.withFallback (.window 5) = .ok windowed ∧
      ∃ span, extract (.ofText text) 7 windowed = some (.ok span) ∧
        ShowsSpan "x.c".toList (.ofText text) span
          (renderLines false (preview "x.c".toList span)) ∧
        renderLines false (preview "x.c".toList span) =
          "x.c lines 8-10 (3 lines)\n".toList ++
            "⚠ no balanced block found; showing a fixed window\n".toList ++
            " 8│ \n 9│ \n10│ ".toList ++ List.replicate 97 'é' ++ "...\n".toList := by
  intro text
  let windowed : Dialect :=
    { Dialect.brace with fallback := .window 5, fallback_ne := by decide }
  let span : BlockSpan := ⟨7, 9, '\n' :: '\n' :: List.replicate 101 'é', .window⟩
  have hspan : extract (.ofText text) 7 windowed = some (.ok span) := by decide +kernel
  exact ⟨windowed, rfl, span, hspan, preview_shows_span windowed text 7 span hspan "x.c".toList,
    by decide +kernel⟩

end CodeSpan
