import CodeSpan.Proofs.Candidate
import CodeSpan.Proofs.CommentText

/-!
# Places of names

A place in a text is told by the characters before it, so its byte offset falls between two
characters and its column is their number. The place of a hint begins in code, and what is
reported for it is the hint itself or a place of the name within it on the same line.
-/

namespace CodeSpan

variable {needle s before after line code : List Char} {r : ByteRange} {plan : SearchPlan}

theorem columnAt_append (before after : List Char) :
    columnAt (before ++ after) (Text.byteLength before) = before.length := by
  rw [columnAt, Text.charsBefore?_byteLength]
  rfl

theorem exists_char (hne : needle ≠ []) (h : line = before ++ needle ++ after) :
    ∃ c rest, line = before ++ c :: rest := by
  obtain ⟨c, needle, rfl⟩ := List.exists_cons_of_ne_nil hne
  exact ⟨c, needle ++ after, by rw [h, List.append_assoc, List.cons_append]⟩

/-- A place at a character of a line has the number of characters before it for its column. -/
theorem column_of_char {c : Char} (hline : line = before ++ c :: after)
    (hstart : r.start = Text.byteLength before) :
    columnAt line r.start = before.length ∧ columnAt line r.start < line.length ∧
      r.start = Text.byteLength (line.take (columnAt line r.start)) := by
  have hcolumn : columnAt line r.start = before.length := by
    rw [hline, hstart, columnAt_append]
  refine ⟨hcolumn, ?_, ?_⟩
  · rw [hcolumn, hline, List.length_append, List.length_cons]
    omega
  · rw [hcolumn, hline, List.take_left, hstart]

theorem exists_of_mem_boundedMatches (h : r ∈ boundedMatches needle s) :
    ∃ before after, s = before ++ needle ++ after ∧ isBounded needle ⟨before, after⟩ = true ∧
      r = ⟨Text.byteLength before, Text.byteLength before + Text.byteLength needle⟩ := by
  obtain ⟨o, ho, rfl⟩ := List.mem_map.1 h
  obtain ⟨hmem, hbounded⟩ := List.mem_filter.1 ho
  exact ⟨o.before, o.after, Text.eq_append_of_mem_occurrences hmem, hbounded, rfl⟩

theorem Qualified.exists_of_mem_findIn {p : Qualified} (h : r ∈ p.findIn s) :
    ∃ before after, s = before ++ p.separator ++ p.leaf ++ after ∧
      (p.needle.getLast?.any Text.isIdent = true → ∀ c ∈ after.head?, Text.isIdent c = false) ∧
      r = ⟨Text.byteLength (before ++ p.separator),
        Text.byteLength (before ++ p.separator) + Text.byteLength p.leaf⟩ := by
  obtain ⟨o, ho, rfl⟩ := List.mem_map.1 h
  obtain ⟨hmem, hright⟩ := List.mem_filter.1 ho
  have hline := Text.eq_append_of_mem_occurrences hmem
  refine ⟨o.before, o.after, ?_, ?_, ?_⟩
  · rw [hline, needle]
    simp only [List.append_assoc]
  · intro hident c hc
    rw [hident] at hright
    simpa [Option.mem_def.1 hc] using hright
  · simp only [ByteRange.ofOccurrence, needle, Text.byteLength_append, Nat.add_assoc]

namespace SearchPlan

theorem exists_of_matchHint? (h : plan.matchHint? line code = some r) :
    ∃ hint ∈ plan.query.hint, ∃ place ∈ boundedMatches hint line,
      startsInCode line code place.start = true ∧ plan.refineHint? line place = some r := by
  unfold matchHint? at h
  cases hhint : plan.query.hint with
  | none =>
      rw [hhint] at h
      cases h
  | some hint =>
      rw [hhint] at h
      obtain ⟨place, hplace, hrefine⟩ := List.exists_of_findSome?_eq_some h
      obtain ⟨hmem, hstarts⟩ := List.mem_filter.1 hplace
      exact ⟨hint, rfl, place, hmem, hstarts, hrefine⟩

theorem refineHint?_cases {place : ByteRange} (h : plan.refineHint? line place = some r) :
    (∃ p, plan.qualified = some p ∧ r ∈ p.findIn line ∧ r.within place = true) ∨
      plan.qualified = none ∧
        (r = place ∨ r ∈ boundedMatches plan.query.name line ∧ r.within place = true) := by
  unfold refineHint? at h
  cases hq : plan.qualified with
  | some p =>
      rw [hq] at h
      change (p.findIn line).find? (·.within place) = some r at h
      have hwithin := List.find?_some h
      exact .inl ⟨p, rfl, List.mem_of_find?_eq_some h, hwithin⟩
  | none =>
      rw [hq] at h
      refine .inr ⟨rfl, ?_⟩
      cases hfound : (boundedMatches plan.query.name line).find? (·.within place) with
      | none =>
          rw [hfound] at h
          exact .inl (Option.some.inj h).symm
      | some r' =>
          have hwithin := List.find?_some hfound
          rw [hfound] at h
          cases h
          exact .inr ⟨List.mem_of_find?_eq_some hfound, hwithin⟩

end SearchPlan

/-- A position is the column of a candidate on a line of code on which its tier matches. -/
theorem exists_match_of_locate? {t : Source} {q : Query} {d : Dialect} {p : Position}
    (h : locate? t q d = some p) :
    ∃ c line code, findCandidate? t q d = some c ∧ c.line = p.line ∧
      t.lines[p.line]? = some line ∧ (d.comments.classes t.lines)[p.line]? = some (.code code) ∧
      p.column = columnAt line c.range.start ∧
      (SearchPlan.ofQuery q d).matchTier? c.tier line code = some c.range := by
  obtain ⟨c, hc, rfl⟩ := Option.map_eq_some_iff.1 h
  obtain ⟨line, code, hline, hcode, -, hmatch⟩ := (findCandidate?_eq_some_iff.1 hc).1
  refine ⟨c, line, code, hc, rfl, hline, hcode, ?_, hmatch⟩
  change columnAt ((t.lines[c.line]?).getD []) c.range.start = _
  rw [hline]
  rfl

end CodeSpan
