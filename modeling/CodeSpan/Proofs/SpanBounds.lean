import CodeSpan.Proofs.Reextraction
import CodeSpan.Proofs.TotalsBound
import CodeSpan.Proofs.Window

/-!
# Numbers of an extraction

The numbers of an extraction are bounded by the text, as long as it is no larger than a machine
holds: lines and distances by its number of lines, and totals by the places where something can
be counted. Only the line behind a window is not, for a window may have any size. Where it is no
word the program stops, and otherwise the span begins on its start line and ends in the text.
-/

namespace CodeSpan

/-- Every number that the count of a block comes to on a line is a word. -/
structure FitsAt (t : Source) (start : Nat) (d : Dialect) (k : Nat) : Prop where
  line : start + k < UInt64.size
  distance : k + 1 < UInt64.size
  opened : (totals t start d k).opened < UInt64.size
  closed : (totals t start d k).closed < UInt64.size

/-- The openers at all places of a text, and one that is open before them, can be counted in a
word. -/
def Dialect.CountsWithin (d : Dialect) (t : Source) : Prop :=
  ∀ rules, rules = d.blocks ∨ rules ∈ d.inlineBlocks →
    rules.openers.length * t.places + 1 < UInt64.size

variable {t : Source} {start k n : Nat} {d windowed : Dialect} {span : BlockSpan}

theorem fitsAt_of_countsWithin (ht : t.size < UInt64.size) (h : d.CountsWithin t)
    (hk : start + k < t.size) : FitsAt t start d k := by
  have hrules := d.selectRules_mem ((blockClasses t start d).headD .comment)
  have husable : (startRules t start d).1.openers ≠ [] := by
    rcases hrules with hblocks | hinline
    · exact hblocks ▸ d.blocks_usable.1
    · exact (d.inlineBlocks_usable _ hinline).1
  have hsize := h _ hrules
  rw [← startRules] at hsize
  obtain ⟨hopened, hclosed⟩ := totals_le t start d k
  have hplaces := Nat.le_mul_of_pos_left t.places (List.length_pos_iff.2 husable)
  exact ⟨by omega, by omega, by omega, by omega⟩

theorem lineCount_of_bounds (ht : t.size < UInt64.size) (hle : span.startLine ≤ span.endLine)
    (hlast : span.endLine < t.size) :
    (Word.minus span.endLine span.startLine).bind (Word.plus · 1) = some span.lineCount := by
  have hfits : span.endLine - span.startLine + 1 < UInt64.size := by omega
  rw [Word.minus, if_pos hle, Option.bind_some, Word.plus, if_pos hfits, BlockSpan.lineCount]

theorem endLine_of_window (hw : d.withFallback (.window n) = .ok windowed)
    (h : extract t start windowed = some (.ok span)) (hkind : span.kind = .window) :
    span.endLine = min (start + n - 1) (t.size - 1) := by
  have hx := extraction (d := windowed) (lt_size_of_extract h)
  rw [h] at hx
  cases hx with
  | balanced => cases hkind
  | window _ hf =>
      rw [Dialect.fallback_withFallback hw] at hf
      cases hf
      rfl

/-- With a window of any size, an extraction from a line of the text stops the program exactly if
the block never closes and the start line and the size add up to more than a word. Otherwise it
gives a span whose lines are in order and in range, with their number, and a window ends where it
should. All numbers that are counted on the way are words if the text is not too large. -/
theorem extract_within_words (d windowed : Dialect) (n : Nat)
    (hw : d.withFallback (.window n) = .ok windowed) (t : Source) (ht : t.size < UInt64.size)
    (start : Nat) (hs : start < t.size) :
    (extract t start windowed = none ↔
      (∀ k, ¬ ClosesAt t start windowed k) ∧ UInt64.size ≤ start + n) ∧
    (extract t start windowed ≠ none → ∃ span, extract t start windowed = some (.ok span)) ∧
    (∀ span, extract t start windowed = some (.ok span) →
      span.startLine = start ∧ start ≤ span.endLine ∧ span.endLine < t.size ∧
      span.lineCount = span.endLine - start + 1 ∧
      (Word.minus span.endLine start).bind (Word.plus · 1) = some span.lineCount ∧
      (span.kind = .window → span.endLine = min (start + n - 1) (t.size - 1))) ∧
    (windowed.CountsWithin t → ∀ k, start + k < t.size → FitsAt t start windowed k) := by
  refine ⟨?_, ?_, ?_, fun hcounts k => fitsAt_of_countsWithin ht hcounts⟩
  · rw [extract_eq_none_iff, Dialect.fallback_withFallback hw]
    simp [hs]
  · intro hne
    cases he : extract t start windowed with
    | none => exact absurd he hne
    | some outcome =>
        cases outcome with
        | error e => exact absurd he (extract_windowed_ne_error hw hs e)
        | ok span => exact ⟨span, rfl⟩
  · intro span hspan
    obtain ⟨hstart, hle, hlast, -⟩ := bounds_of_extract hspan
    have hcount := lineCount_of_bounds ht (hstart.symm ▸ hle) hlast
    rw [hstart] at hcount
    refine ⟨hstart, hle, hlast, ?_, hcount, endLine_of_window hw hspan⟩
    rw [BlockSpan.lineCount, hstart]

theorem extract_within_words_brace :
    let t : Source := ⟨["a", "b", "c"].map String.toList⟩
    ∃ windowed, Dialect.brace.withFallback (.window (2 ^ 64 - 1)) = .ok windowed ∧
      t.size < UInt64.size ∧ 0 < t.size ∧ extract t 0 windowed ≠ none ∧
      (∃ span, extract t 0 windowed = some (.ok span) ∧ span.endLine = 2 ∧ span.lineCount = 3) ∧
      ∀ k < 3, FitsAt t 0 windowed k := by
  intro t
  let windowed : Dialect :=
    { Dialect.brace with fallback := .window (2 ^ 64 - 1), fallback_ne := by decide }
  obtain ⟨hstops, hspan, hbounds, hcounts⟩ := extract_within_words Dialect.brace windowed
    (2 ^ 64 - 1) rfl t (by decide) 0 (by decide)
  have hrun : extract t 0 windowed ≠ none := fun hnone =>
    absurd (hstops.1 hnone).2 (by decide)
  have hkind : extract t 0 windowed = some (.ok ⟨0, 2, "a\nb\nc".toList, .window⟩) := by
    decide +kernel
  have hwithin : windowed.CountsWithin t := by
    rintro rules (rfl | hinline)
    · decide
    · cases hinline
  obtain ⟨span, hs⟩ := hspan hrun
  obtain ⟨-, -, -, hcount, -, hend⟩ := hbounds span hs
  obtain rfl := Except.ok.inj (Option.some.inj (hkind.symm.trans hs))
  refine ⟨windowed, rfl, by decide, by decide, hrun, ⟨_, hs, hend rfl, hcount⟩, fun k hk => ?_⟩
  refine hcounts hwithin k ?_
  rw [Nat.zero_add]
  exact hk

theorem not_extract_within_words :
    ∃ windowed, Dialect.brace.withFallback (.window (2 ^ 64 - 1)) = .ok windowed ∧
      extract ⟨["a", "b", "c"].map String.toList⟩ 2 windowed = none :=
  ⟨{ Dialect.brace with fallback := .window (2 ^ 64 - 1), fallback_ne := by decide }, rfl,
    by decide +kernel⟩

end CodeSpan
