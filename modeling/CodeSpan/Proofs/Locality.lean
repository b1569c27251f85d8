import CodeSpan.Proofs.Extraction

/-!
# A block by itself

An extraction reads nothing above its start line, and if the block balances it reads nothing
below its last line. So a balanced block is cut out the same from any surroundings, however
unfinished the comments and blocks around it are, and lines put on top of a text move every
outcome by their number and change nothing else. Only a window that has an end no longer has one
once it is moved too far.
-/

namespace CodeSpan

namespace Source

/-- The text with some lines on top of it. -/
def below (t : Source) (above : List (List Char)) : Source :=
  ⟨above ++ t.lines⟩

end Source

namespace BlockSpan

def lowered (span : BlockSpan) (n : Nat) : BlockSpan :=
  { span with startLine := n + span.startLine, endLine := n + span.endLine }

end BlockSpan

def ExtractError.lowered (n : Nat) : ExtractError → ExtractError
  | .startOutOfRange line size => .startOutOfRange (n + line) (n + size)
  | .unbalanced startLine opened closed => .unbalanced (n + startLine) opened closed

def loweredOutcome (n : Nat) : Except ExtractError BlockSpan → Except ExtractError BlockSpan
  | .ok span => .ok (span.lowered n)
  | .error e => .error (e.lowered n)

variable {t : Source} {above : List (List Char)} {start first last k : Nat} {d : Dialect}

namespace Source

@[simp] theorem size_below : (t.below above).size = above.length + t.size := by
  simp [size, below]

theorem drop_below : (t.below above).lines.drop (above.length + start) = t.lines.drop start := by
  rw [below, List.drop_length_add_append]

theorem join_below :
    (t.below above).join (above.length + first) (above.length + last) = t.join first last := by
  rw [join, join, List.drop_take, List.drop_take, drop_below]
  congr 2
  omega

end Source

theorem totals_below :
    totals (t.below above) (above.length + start) d k = totals t start d k :=
  totals_congr (by rw [Source.drop_below])

theorem closesAt_below_iff :
    ClosesAt (t.below above) (above.length + start) d k ↔ ClosesAt t start d k := by
  constructor
  · intro h
    have hrange := h.inRange
    rw [Source.size_below] at hrange
    exact h.congr (by omega) fun j _ => totals_below.symm
  · intro h
    have hrange := h.inRange
    exact h.congr (by rw [Source.size_below]; omega) fun j _ => totals_below

theorem never_below (h : ∀ k, ¬ ClosesAt t start d k) (above : List (List Char)) (k : Nat) :
    ¬ ClosesAt (t.below above) (above.length + start) d k :=
  fun hk => h k (closesAt_below_iff.1 hk)

theorem ofLines_below (kind : SpanKind) :
    BlockSpan.ofLines (t.below above) (above.length + first) (above.length + last) kind =
      (BlockSpan.ofLines t first last kind).lowered above.length := by
  rw [BlockSpan.ofLines, Source.join_below]
  rfl

theorem window_below {size : Nat} (hs : start < t.size) (hsize : size ≠ 0) :
    BlockSpan.ofLines (t.below above) (above.length + start)
        (min (above.length + start + size - 1) ((t.below above).size - 1)) .window =
      (BlockSpan.ofLines t start (min (start + size - 1) (t.size - 1)) .window).lowered
        above.length := by
  have hend : min (above.length + start + size - 1) ((t.below above).size - 1) =
      above.length + min (start + size - 1) (t.size - 1) := by
    rw [Source.size_below]
    omega
  rw [hend, ofLines_below]

/-- Lines on top of a text lower every outcome of an extraction by their number, unless they stop
the program. -/
theorem extract_below (h : extract (t.below above) (above.length + start) d ≠ none) :
    extract (t.below above) (above.length + start) d =
      (extract t start d).map (loweredOutcome above.length) := by
  rcases Nat.lt_or_ge start t.size with hs | hs
  · have hs' : above.length + start < (t.below above).size := by
      rw [Source.size_below]
      omega
    -- Each way in which the extraction ends is also that of the lowered one, but a window may
    -- end too far down there.
    have hx := extraction (d := d) hs
    generalize extract t start d = outcome at hx
    cases hx with
    | balanced hk =>
        rw [extract_of_closesAt (closesAt_below_iff.2 hk), Nat.add_assoc, ofLines_below]
        rfl
    | @window size hnever hf hfits =>
        have hsize : size ≠ 0 := fun hz => d.fallback_ne (hz ▸ hf)
        have hfits' : above.length + start + size < UInt64.size := by
          by_contra! hover
          exact h (extract_of_overflow hs' hf hover (never_below hnever above))
        rw [extract_of_window hs' hf hfits' (never_below hnever above), window_below hs hsize]
        rfl
    | @stopped size hnever hf hover =>
        have hover' : UInt64.size ≤ above.length + start + size := by omega
        exact absurd (extract_of_overflow hs' hf hover' (never_below hnever above)) h
    | unbalanced hnever hf =>
        have hlast : above.length + t.size - 1 - (above.length + start) = t.size - 1 - start := by
          omega
        rw [extract_of_fail hs' hf (never_below hnever above), Source.size_below, hlast,
          totals_below]
        rfl
  · rw [extract_of_size_le hs, extract_of_size_le (by rw [Source.size_below]; omega),
      Source.size_below]
    rfl

/-- Lines on top of a text stop the program where they move the end of a window too far. -/
theorem extract_below_eq_none_iff :
    extract (t.below above) (above.length + start) d = none ↔
      start < t.size ∧ (∀ k, ¬ ClosesAt t start d k) ∧
        ∃ size, d.fallback = .window size ∧ UInt64.size ≤ above.length + start + size := by
  rw [extract_eq_none_iff, Source.size_below, Nat.add_lt_add_iff_left]
  simp only [closesAt_below_iff]

section Surroundings

variable {above' block under under' : List (List Char)}

theorem take_block (above under : List (List Char)) (h : k < block.length) :
    ((above ++ block ++ under).drop above.length).take (k + 1) = block.take (k + 1) := by
  rw [List.append_assoc, List.drop_left, List.take_append_of_le_length h]

theorem ClosesAt.surrounded (h : ClosesAt ⟨above ++ block ++ under⟩ above.length d k)
    (hk : k < block.length) :
    ClosesAt ⟨above' ++ block ++ under'⟩ above'.length d k := by
  refine h.congr ?_ fun j hj => totals_congr ?_
  · simp only [Source.size, List.length_append]
    omega
  · rw [take_block above' under' (by omega), take_block above under (by omega)]

theorem join_block (above under : List (List Char)) (h : block.length = k + 1) :
    Source.join ⟨above ++ block ++ under⟩ above.length (above.length + k) =
      List.intercalate ['\n'] block := by
  rw [join_add, take_block above under (by omega), List.take_of_length_le (by omega)]

/-- A balanced block is cut out alike wherever its lines stand. -/
theorem extract_surrounded {span : BlockSpan}
    (h : extract ⟨above ++ block ++ under⟩ above.length d = some (.ok span))
    (hkind : span.kind = .balanced) (hend : span.endLine + 1 = above.length + block.length)
    (above' under' : List (List Char)) :
    extract ⟨above' ++ block ++ under'⟩ above'.length d =
      some (.ok ⟨above'.length, above'.length + block.length - 1, span.text, .balanced⟩) := by
  obtain ⟨k, hk, rfl⟩ := closesAt_of_extract h hkind
  have hlen : block.length = k + 1 := by
    simp only [BlockSpan.ofLines] at hend
    omega
  have hlast : above'.length + block.length - 1 = above'.length + k := by omega
  rw [extract_of_closesAt (hk.surrounded (by omega)), BlockSpan.ofLines, BlockSpan.ofLines,
    join_block above' under' hlen, join_block above under hlen, hlast]

end Surroundings

/-- A block that balances on its last line is cut out with the same text from any lines above
and below it. Lines on top of a text stop the program exactly if the block never closes and its
window, moved by them, has an end that is no word; otherwise they shift the outcome by their
number. -/
theorem extract_local (d : Dialect) :
    (∀ above block under above' under' span,
      extract ⟨above ++ block ++ under⟩ above.length d = some (.ok span) → span.kind = .balanced →
      span.endLine + 1 = above.length + block.length →
      extract ⟨above' ++ block ++ under'⟩ above'.length d =
        some (.ok ⟨above'.length, above'.length + block.length - 1, span.text, .balanced⟩)) ∧
    ∀ above t start,
      let moved := extract (Source.below t above) (above.length + start) d
      (moved = none ↔ start < t.size ∧ (∀ k, ¬ ClosesAt t start d k) ∧
        ∃ size, d.fallback = .window size ∧ UInt64.size ≤ above.length + start + size) ∧
      (moved ≠ none → moved = (extract t start d).map (loweredOutcome above.length)) := by
  refine ⟨?_, fun above t start => ⟨extract_below_eq_none_iff, extract_below⟩⟩
  intro above block under above' under' span h hkind hend
  exact extract_surrounded h hkind hend above' under'

theorem extract_local_brace :
    let block := ["f() \x7b", "/* \x7d", "*/ \x7d", "\x7d"].map String.toList
    let span : BlockSpan := ⟨0, 3, List.intercalate ['\n'] block, .balanced⟩
    extract ⟨[] ++ block ++ []⟩ 0 Dialect.brace = some (.ok span) ∧
      extract ⟨["\x7b /* ".toList] ++ block ++ ["\x7d \x7d".toList]⟩ 1 Dialect.brace =
        some (.ok ⟨1, 4, span.text, .balanced⟩) := by
  intro block span
  have h : extract ⟨[] ++ block ++ []⟩ 0 Dialect.brace = some (.ok span) := by decide +kernel
  exact ⟨h, (extract_local Dialect.brace).1 [] block [] ["\x7b /* ".toList]
    ["\x7d \x7d".toList] span h rfl rfl⟩

/-- The largest window has an end from the first line of a text but not from the third. -/
theorem not_extract_local :
    ∃ windowed, Dialect.brace.withFallback (.window (2 ^ 64 - 1)) = .ok windowed ∧
      let t : Source := ⟨["c".toList]⟩
      extract t 0 windowed = some (.ok ⟨0, 0, "c".toList, .window⟩) ∧
        extract (t.below ["a".toList, "b".toList]) 2 windowed = none :=
  ⟨{ Dialect.brace with fallback := .window (2 ^ 64 - 1), fallback_ne := by decide }, rfl,
    by decide +kernel, by decide +kernel⟩

end CodeSpan
