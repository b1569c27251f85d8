import CodeSpan.Proofs.Extraction
import CodeSpan.Proofs.Segment

/-!
# Extracting a span from its own text

The totals of a block never look past its last line. A span taken as a text of its own is
therefore counted as it was counted in the text around it: a balanced span balances on its last
line again, and the lines of a window neither close a block nor outlast the window. A window that
has an end in the text around it has one in its own text, which lies above.
-/

namespace CodeSpan

variable {t : Source} {start last k : Nat} {d : Dialect} {span : BlockSpan}

theorem totals_segment (h : start + k ≤ last) :
    totals (t.segment start last) 0 d k = totals t start d k := by
  apply totals_congr
  rw [List.drop_zero, Source.take_segment h]

theorem closesAt_segment_iff (hlast : last < t.size) (hk : start + k ≤ last) :
    ClosesAt (t.segment start last) 0 d k ↔ ClosesAt t start d k := by
  have hsize := Source.size_segment start hlast
  have htotals : ∀ j ≤ k, totals (t.segment start last) 0 d j = totals t start d j :=
    fun j hj => totals_segment (by omega)
  exact ⟨fun h => h.congr (by omega) fun j hj => (htotals j hj).symm,
    fun h => h.congr (by omega) htotals⟩

/-- A span lies within its text and starts where it was asked for. -/
theorem bounds_of_extract (h : extract t start d = some (.ok span)) :
    span.startLine = start ∧ start ≤ span.endLine ∧ span.endLine < t.size ∧
      span.text = t.join start span.endLine := by
  have hs := lt_size_of_extract h
  have hx := extraction (d := d) hs
  rw [h] at hx
  cases hx with
  | balanced hk => exact ⟨rfl, Nat.le_add_right _ _, hk.inRange, rfl⟩
  | @window size _ hf =>
      have hsize : size ≠ 0 := fun hz => d.fallback_ne (hz ▸ hf)
      refine ⟨rfl, ?_, ?_, rfl⟩ <;> simp only [BlockSpan.ofLines] <;> omega

theorem extract_segment_of_closesAt (h : ClosesAt t start d k) :
    extract (t.segment start (start + k)) 0 d =
      some (.ok ⟨0, k, t.join start (start + k), .balanced⟩) := by
  have hjoin := Source.join_segment (t := t) (Nat.le_add_right start k)
  rw [Nat.add_sub_cancel_left] at hjoin
  rw [extract_of_closesAt ((closesAt_segment_iff h.inRange (Nat.le_refl _)).2 h),
    BlockSpan.ofLines, Nat.zero_add, hjoin]

theorem extract_segment_of_window {size : Nat} (hf : d.fallback = .window size)
    (hle : start ≤ last) (hlast : last < t.size) (hwin : last < start + size)
    (hfits : start + size < UInt64.size) (h : ∀ k, ¬ ClosesAt t start d k) :
    extract (t.segment start last) 0 d =
      some (.ok ⟨0, last - start, t.join start last, .window⟩) := by
  have hsize := Source.size_segment start hlast
  have hnever : ∀ k, ¬ ClosesAt (t.segment start last) 0 d k := by
    intro k hk
    have hrange := hk.inRange
    exact h k ((closesAt_segment_iff hlast (by omega)).1 hk)
  have hend : min (0 + size - 1) ((t.segment start last).size - 1) = last - start := by omega
  rw [extract_of_window (by omega) hf (by omega) hnever, hend, BlockSpan.ofLines,
    Source.join_segment hle]

theorem extract_segment (h : extract t start d = some (.ok span)) :
    extract (t.segment start span.endLine) 0 d =
      some (.ok ⟨0, span.endLine - start, span.text, span.kind⟩) := by
  obtain ⟨-, hle, hlast, -⟩ := bounds_of_extract h
  have hx := extraction (d := d) (lt_size_of_extract h)
  rw [h] at hx
  cases hx with
  | @balanced k hk =>
      have hsub : start + k - start = k := Nat.add_sub_cancel_left start k
      exact (extract_segment_of_closesAt hk).trans (by rw [BlockSpan.ofLines, hsub])
  | @window size hnever hf hfits =>
      have hsize : size ≠ 0 := fun hz => d.fallback_ne (hz ▸ hf)
      refine extract_segment_of_window hf hle hlast ?_ hfits hnever
      simp only [BlockSpan.ofLines]
      omega

/-- The text of a span is extracted whole from its first line, by the same dialect. -/
theorem extract_own_span (s : List Char) (start : Nat) (d : Dialect) (span : BlockSpan)
    (h : extract (.ofText s) start d = some (.ok span)) :
    ∃ own, extract (.ofText span.text) 0 d = some (.ok own) ∧ own.startLine = 0 ∧
      own.text = span.text ∧ own.kind = span.kind ∧ own.lineCount = span.lineCount := by
  obtain ⟨hstart, hle, hlast, htext⟩ := bounds_of_extract h
  have hsource : Source.ofText span.text = (Source.ofText s).segment start span.endLine := by
    rw [htext, Source.ofText_join (Source.split_ofText s) hle (by omega)]
  refine ⟨⟨0, span.endLine - start, span.text, span.kind⟩, ?_, rfl, rfl, rfl, ?_⟩
  · rw [hsource]
    exact extract_segment h
  · rw [BlockSpan.lineCount, BlockSpan.lineCount, hstart, Nat.sub_zero]

theorem extract_own_span_window :
    let span : BlockSpan := ⟨1, 3, "int f();\n/* \x7b\n".toList, .window⟩
    extract (.ofText "\x7d\nint f();\n/* \x7b\n".toList) 1 Dialect.brace = some (.ok span) ∧
      ∃ own, extract (.ofText span.text) 0 Dialect.brace = some (.ok own) ∧ own.startLine = 0 ∧
        own.text = span.text ∧ own.kind = .window ∧ own.lineCount = 3 := by
  intro span
  have h : extract (.ofText "\x7d\nint f();\n/* \x7b\n".toList) 1 Dialect.brace =
      some (.ok span) := by decide +kernel
  exact ⟨h, extract_own_span _ 1 Dialect.brace span h⟩

end CodeSpan
