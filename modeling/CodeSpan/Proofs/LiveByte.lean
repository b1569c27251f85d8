import CodeSpan.Proofs.CommentText

/-!
# Bytes that are kept

A byte of a line of code that belongs to no comment is kept, at the same offset of the code, and
all behind the code belongs to a comment. So a place that begins with another character than a
space begins in code exactly when it begins outside every comment.
-/

namespace CodeSpan

namespace CommentSyntax

variable {σ : CommentSyntax} {line code left body right tail before after : List Char}
  {start stop offset : Nat} {r : Region} {c : Char}

theorem byteLength_take_add (line : List Char) (h : start ≤ stop) :
    Text.byteLength (line.take start) + Text.byteLength ((line.take stop).drop start) =
      Text.byteLength (line.take stop) := by
  have htake : line.take start = (line.take stop).take start := by
    rw [List.take_take, Nat.min_eq_left h]
  rw [htake, ← Text.byteLength_append, List.take_append_drop]

theorem byteLength_blank (h : start ≤ stop) :
    Text.byteLength (blank line start stop) = Text.byteLength line := by
  have hfront := byteLength_take_add line h
  have hline : Text.byteLength (line.take stop) + Text.byteLength (line.drop stop) =
      Text.byteLength line := by
    rw [← Text.byteLength_append, List.take_append_drop]
  simp only [blank, Text.byteLength_append, Text.byteLength_spaces]
  omega

theorem byteLength_withoutBlock (σ : CommentSyntax) (line : List Char) :
    Text.byteLength (σ.withoutBlock line) = Text.byteLength line := by
  rw [withoutBlock]
  split
  · split_ifs with hlt
    · exact byteLength_blank (Nat.le_of_lt hlt)
    · rfl
  · rfl

/-- What is cut off with a line comment belongs to it. -/
theorem removes_of_cut
    (hle : Text.byteLength (σ.cutLineComment (σ.withoutBlock line)) ≤ offset)
    (hlt : offset < Text.byteLength line) : σ.Removes line offset := by
  rw [cutLineComment] at hle
  split at hle
  · next o ho => exact .trailing (List.mem_of_find?_eq_some ho) (List.find?_some ho) hle
  · rw [byteLength_withoutBlock] at hle
    omega

theorem removes_behind_code (h : (σ.classify r line).1 = .code code)
    (hle : Text.byteLength code ≤ offset) (hlt : offset < Text.byteLength line) :
    σ.Removes line offset := by
  have hout := σ.region_eq_outside_of_code h
  subst hout
  by_cases hl : σ.isLineComment line = true
  · rw [classify_of_lineComment _ (isLineComment_iff.1 hl)] at h
    cases h
  rcases σ.unpaired_or_pair line with hun | ⟨start, stop, ho, hc, hpair⟩
  · have hcut : Text.byteLength (σ.cutLineComment line) ≤ offset → σ.Removes line offset := by
      intro hle
      rw [← withoutBlock_of_unpaired hun] at hle
      exact removes_of_cut hle hlt
    cases ho : σ.openIndex? line with
    | none =>
        rw [classify_of_unopened hl ho] at h
        cases h
        exact hcut hle
    | some start =>
        have hno : ∀ stop, σ.closeIndex? line = some stop → stop ≤ start := fun stop hc =>
          hun start stop ho hc
        rw [classify_of_opened hl ho hno] at h
        unfold enterBlock at h
        dsimp only at h
        split_ifs at h with hshort hblank
        · cases h
          exact hcut hle
        · cases h
          exact .unclosed ho hno hle
  · rw [classify_of_pair hl ho hc hpair, ← withoutBlock_of_pair ho hc hpair] at h
    cases h
    exact removes_of_cut hle hlt

theorem Stripped.byteAt?_eq (h : σ.Stripped line code left body right tail)
    (hin : offset < Text.byteLength code) (hlive : ¬ σ.Removes line offset) :
    Text.byteAt? line offset = Text.byteAt? code offset := by
  rw [← Text.byteAt?_append_left (t := tail) hin, h.code_eq, h.line_eq]
  by_cases hleft : offset < Text.byteLength left
  · rw [List.append_assoc, List.append_assoc, Text.byteAt?_append_left hleft,
      Text.byteAt?_append_left hleft]
  · have hright : Text.byteLength left + Text.byteLength body ≤ offset := by
      by_contra! hlt
      have hbody : body ≠ [] := by
        rintro rfl
        rw [Text.byteLength_nil] at hlt
        omega
      refine hlive (.block (h.opens hbody) (h.closes hbody) ?_ ?_)
      · rw [h.line_eq, List.append_assoc, List.take_left]
        omega
      · rwa [h.line_eq, ← List.length_append, List.take_left, Text.byteLength_append]
    have hfront : ∀ middle : List Char, Text.byteLength middle = Text.byteLength body →
        Text.byteAt? (left ++ middle ++ right) offset =
          Text.byteAt? right (offset - (Text.byteLength left + Text.byteLength body)) := by
      intro middle hmiddle
      rw [← hmiddle] at hright ⊢
      rw [← Text.byteLength_append] at hright ⊢
      exact Text.byteAt?_append_right hright
    rw [hfront body rfl, hfront _ (Text.byteLength_spaces _)]

/-- A place begins in code exactly when it begins outside every comment. -/
theorem startsInCode_iff (hσ : σ.Delimited) {lines : List (List Char)} {i : Nat}
    (hline : lines[i]? = some line) (hcode : (σ.classes lines)[i]? = some (.code code))
    (hchar : line = before ++ c :: after) (hc : c ≠ ' ') :
    SearchPlan.startsInCode line code (Text.byteLength before) = true ↔
      ¬ σ.Removes line (Text.byteLength before) := by
  obtain ⟨left, body, right, tail, hs⟩ := exists_stripped_of_classes hσ hline hcode
  refine ⟨hs.not_removes_of_startsInCode hchar hc, fun hlive => ?_⟩
  have hlt : Text.byteLength before < Text.byteLength line := by
    have hpos := c.utf8Size_pos
    rw [hchar, Text.byteLength_append, Text.byteLength_cons]
    omega
  have hin : Text.byteLength before < Text.byteLength code := by
    by_contra! hle
    rw [σ.getElem?_classes, hline, Option.map_some, Option.some.injEq] at hcode
    exact hlive (removes_behind_code hcode hle hlt)
  rw [SearchPlan.startsInCode, Bool.and_eq_true, decide_eq_true_eq, beq_iff_eq]
  exact ⟨hin, hs.byteAt?_eq hin hlive⟩

end CommentSyntax

end CodeSpan
