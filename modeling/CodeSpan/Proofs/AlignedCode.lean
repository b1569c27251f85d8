import CodeSpan.Proofs.CommentAutomaton
import CodeSpan.Proofs.LiveByte

/-!
# Code aligned with its line

The code of a line is a beginning of the line in which at most one stretch is blanked out, from
the start of the first opening marker to the end of the last closing one. Blanking keeps the
bytes, so each byte of the code is a space in that stretch and the byte of the line everywhere
else, and a byte other than a space is found in the code exactly when it was neither blanked out
nor cut off.
-/

namespace CodeSpan

def ByteRange.Covers (range : ByteRange) (offset : Nat) : Prop :=
  range.start ≤ offset ∧ offset < range.stop

namespace CommentSyntax

/-- The range from the start of the first opening marker of a line to the end of its last closing
marker, if that stands further on. Both ends fall between two characters. -/
def Spans (σ : CommentSyntax) (line : List Char) (range : ByteRange) : Prop :=
  ∃ first last, Text.FirstAt σ.blockOpen line first ∧ Text.LastAt σ.blockClose line last ∧
    first < last + σ.blockClose.length ∧ range = ⟨Text.byteLength (line.take first),
      Text.byteLength (line.take (last + σ.blockClose.length))⟩

variable {σ : CommentSyntax} {r : Region} {line code : List Char} {start stop offset : Nat}
  {range : ByteRange}

theorem byteAt?_blank_inside (hle : start ≤ stop)
    (hstart : Text.byteLength (line.take start) ≤ offset)
    (hstop : offset < Text.byteLength (line.take stop)) :
    Text.byteAt? (blank line start stop) offset = some 0x20 := by
  have hadd := byteLength_take_add line hle
  have hin : offset - Text.byteLength (line.take start) <
      Text.byteLength ((line.take stop).drop start) := by omega
  rw [blank, List.append_assoc, Text.byteAt?_append_right hstart,
    Text.byteAt?_append_left (by rwa [Text.byteLength_spaces]), Text.byteAt?,
    Text.utf8Bytes_spaces, List.getElem?_replicate, if_pos hin]

theorem byteAt?_blank_outside (hle : start ≤ stop)
    (h : offset < Text.byteLength (line.take start) ∨
      Text.byteLength (line.take stop) ≤ offset) :
    Text.byteAt? (blank line start stop) offset = Text.byteAt? line offset := by
  rcases h with hleft | hright
  · rw [blank, List.append_assoc, Text.byteAt?_append_left hleft]
    conv_rhs => rw [← List.take_append_drop start line]
    rw [Text.byteAt?_append_left hleft]
  · have hadd := byteLength_take_add line hle
    have hfront : Text.byteLength (line.take start ++ List.replicate
        (Text.byteLength ((line.take stop).drop start)) ' ') =
          Text.byteLength (line.take stop) := by
      rw [Text.byteLength_append, Text.byteLength_spaces, hadd]
    rw [blank, Text.byteAt?_append_right (by rwa [hfront]), hfront]
    conv_rhs => rw [← List.take_append_drop stop line]
    rw [Text.byteAt?_append_right hright]

/-- The code of a line is a beginning of the line without its block comment. -/
theorem code_prefix (hσ : σ.Delimited) (h : (σ.classify r line).1 = .code code) :
    code <+: σ.withoutBlock line := by
  rcases σ.unpaired_or_pair line with hun | ⟨start, stop, ho, hc, hlt⟩
  · obtain ⟨left, body, right, tail, hs⟩ := exists_stripped hσ h
    have hbody : body = [] := by
      by_contra hne
      have hle := hun _ _ (hs.opens hne) (hs.closes hne)
      have hpos := List.length_pos_of_ne_nil hne
      omega
    subst hbody
    have hline := hs.line_eq
    rw [List.append_nil] at hline
    rw [withoutBlock_of_unpaired hun, hline]
    exact ⟨tail, hs.code_eq.trans (by simp)⟩
  · have hl : ¬ σ.isLineComment line = true := by
      intro hl
      rw [classify_of_lineComment r (isLineComment_iff.1 hl)] at h
      cases h
    have hout := σ.region_eq_outside_of_code h
    subst hout
    rw [classify_of_pair hl ho hc hlt] at h
    cases h
    obtain ⟨tail, hcut, -⟩ := exists_cut hσ (blank line start stop)
    rw [withoutBlock_of_pair ho hc hlt]
    exact ⟨tail, hcut⟩

theorem spans_iff (hσ : σ.Delimited) :
    σ.Spans line range ↔ ∃ start stop, σ.openIndex? line = some start ∧
      σ.closeIndex? line = some stop ∧ start < stop ∧
      range = ⟨Text.byteLength (line.take start), Text.byteLength (line.take stop)⟩ := by
  constructor
  · rintro ⟨first, last, hfirst, hlast, hlt, hrange⟩
    exact ⟨first, _, openIndex?_of_firstAt hσ hfirst, closeIndex?_of_lastAt hσ hlast, hlt, hrange⟩
  · rintro ⟨start, stop, ho, hc, hlt, hrange⟩
    rcases openIndex?_cases hσ line with ⟨first, hsome, hfirst⟩ | ⟨hnone, -⟩
    · rcases closeIndex?_cases hσ line with ⟨last, hsome', hlast⟩ | ⟨hnone, -⟩
      · rw [ho, Option.some.injEq] at hsome
        rw [hc, Option.some.injEq] at hsome'
        subst hsome hsome'
        exact ⟨_, last, hfirst, hlast, hlt, hrange⟩
      · rw [hc] at hnone
        cases hnone
    · rw [ho] at hnone
      cases hnone

theorem Spans.eq (hσ : σ.Delimited) {range' : ByteRange} (h : σ.Spans line range)
    (h' : σ.Spans line range') : range = range' := by
  obtain ⟨start, stop, ho, hc, -, rfl⟩ := (spans_iff hσ).1 h
  obtain ⟨start', stop', ho', hc', -, rfl⟩ := (spans_iff hσ).1 h'
  rw [ho, Option.some.injEq] at ho'
  rw [hc, Option.some.injEq] at hc'
  rw [ho', hc']

theorem byteAt?_withoutBlock_inside (hσ : σ.Delimited) (h : σ.Spans line range)
    (hin : range.Covers offset) : Text.byteAt? (σ.withoutBlock line) offset = some 0x20 := by
  obtain ⟨start, stop, ho, hc, hlt, rfl⟩ := (spans_iff hσ).1 h
  rw [withoutBlock_of_pair ho hc hlt]
  exact byteAt?_blank_inside (Nat.le_of_lt hlt) hin.1 hin.2

theorem byteAt?_withoutBlock_outside (hσ : σ.Delimited)
    (h : ∀ range, σ.Spans line range → ¬ range.Covers offset) :
    Text.byteAt? (σ.withoutBlock line) offset = Text.byteAt? line offset := by
  rcases σ.unpaired_or_pair line with hun | ⟨start, stop, ho, hc, hlt⟩
  · rw [withoutBlock_of_unpaired hun]
  · have hout := h _ ((spans_iff hσ).2 ⟨start, stop, ho, hc, hlt, rfl⟩)
    rw [withoutBlock_of_pair ho hc hlt]
    refine byteAt?_blank_outside (Nat.le_of_lt hlt) ?_
    by_contra! hin
    exact hout hin

theorem exists_gap (hσ : σ.Delimited) (line : List Char) :
    ∃ gap : Option ByteRange, ∀ range, gap = some range ↔ σ.Spans line range := by
  by_cases h : ∃ range, σ.Spans line range
  · obtain ⟨range, hrange⟩ := h
    refine ⟨some range, fun range' => ⟨?_, fun h' => congrArg some (hrange.eq hσ h')⟩⟩
    rintro ⟨⟩
    exact hrange
  · refine ⟨none, fun range => ⟨fun hnone => ?_, fun hrange => absurd ⟨range, hrange⟩ h⟩⟩
    cases hnone

/-- Code is read outside comments only and is no longer than its line. It has spaces on the one
stretch between the markers of the line, if they open and close a comment, and everywhere else
the bytes of the line, so that a byte other than a space is found in the code exactly when it was
neither blanked out nor cut off. -/
theorem code_aligned (hσ : σ.Delimited) (r : Region) (line code : List Char)
    (h : (σ.classify r line).1 = .code code) :
    r = .outside ∧ Text.byteLength code ≤ Text.byteLength line ∧
      ∃ gap : Option ByteRange, (∀ range, gap = some range ↔ σ.Spans line range) ∧
        (∀ offset < Text.byteLength code, (∃ range ∈ gap, range.Covers offset) →
          Text.byteAt? code offset = some 0x20) ∧
        (∀ offset < Text.byteLength code, (¬ ∃ range ∈ gap, range.Covers offset) →
          Text.byteAt? code offset = Text.byteAt? line offset) ∧
        ∀ offset byte, Text.byteAt? line offset = some byte → byte ≠ 0x20 →
          (SearchPlan.startsInCode line code offset = true ↔
            offset < Text.byteLength code ∧ ¬ ∃ range ∈ gap, range.Covers offset) := by
  obtain ⟨tail, hcode⟩ := code_prefix hσ h
  have hkept : ∀ offset < Text.byteLength code,
      Text.byteAt? code offset = Text.byteAt? (σ.withoutBlock line) offset := by
    intro offset hin
    rw [← hcode, Text.byteAt?_append_left hin]
  have hlen : Text.byteLength code ≤ Text.byteLength line := by
    rw [← byteLength_withoutBlock σ line]
    exact Text.byteLength_le_of_prefix ⟨tail, hcode⟩
  obtain ⟨gap, hgap⟩ := exists_gap hσ line
  have hblanked : ∀ offset < Text.byteLength code, (∃ range ∈ gap, range.Covers offset) →
      Text.byteAt? code offset = some 0x20 := by
    rintro offset hin ⟨range, hmem, hcovers⟩
    rw [hkept offset hin, byteAt?_withoutBlock_inside hσ ((hgap range).1 hmem) hcovers]
  have hother : ∀ offset < Text.byteLength code, (¬ ∃ range ∈ gap, range.Covers offset) →
      Text.byteAt? code offset = Text.byteAt? line offset := by
    intro offset hin hno
    rw [hkept offset hin, byteAt?_withoutBlock_outside hσ]
    exact fun range hrange hcovers => hno ⟨range, (hgap range).2 hrange, hcovers⟩
  refine ⟨σ.region_eq_outside_of_code h, hlen, gap, hgap, hblanked, hother, ?_⟩
  intro offset byte hbyte hspace
  rw [SearchPlan.startsInCode, Bool.and_eq_true, decide_eq_true_eq, beq_iff_eq]
  refine and_congr_right fun hin => ⟨fun heq hcovers => hspace ?_, fun hno => ?_⟩
  · rw [hblanked offset hin hcovers, hbyte, Option.some.injEq] at heq
    exact heq
  · exact (hother offset hin hno).symm

theorem code_aligned_brace :
    let σ := Dialect.brace.comments
    let line := "é /* ñ */ ñ // ñ".toList
    let code := "é          ñ ".toList
    (σ.classify .outside line).1 = .code code ∧ σ.Spans line ⟨3, 11⟩ ∧
      SearchPlan.startsInCode line code 6 = false ∧
      SearchPlan.startsInCode line code 12 = true ∧
      SearchPlan.startsInCode line code 18 = false := by
  intro σ line code
  have hσ : σ.Delimited := Dialect.brace.comments_delimited
  have h : (σ.classify .outside line).1 = .code code := by decide +kernel
  have hspans : σ.Spans line ⟨3, 11⟩ :=
    (spans_iff hσ).2 ⟨2, 9, by decide, by decide, by decide, by decide⟩
  obtain ⟨-, -, gap, hgap, -, -, hfound⟩ := code_aligned hσ .outside line code h
  have hsome := (hgap ⟨3, 11⟩).2 hspans
  refine ⟨h, hspans, ?_, ?_, ?_⟩
  · rw [Bool.eq_false_iff]
    intro hstarts
    exact ((hfound 6 0xC3 rfl (by decide)).1 hstarts).2 ⟨⟨3, 11⟩, hsome, by decide, by decide⟩
  · refine (hfound 12 0xC3 rfl (by decide)).2 ⟨by decide, ?_⟩
    rintro ⟨range, hmem, hcovers⟩
    rw [hsome] at hmem
    cases hmem
    exact absurd hcovers.2 (by decide)
  · rw [Bool.eq_false_iff]
    intro hstarts
    exact absurd ((hfound 18 0xC3 rfl (by decide)).1 hstarts).1 (by decide)

end CommentSyntax

end CodeSpan
