import CodeSpan.Proofs.DefinitionLine
import CodeSpan.Proofs.LocatedText
import CodeSpan.Proofs.ReachedPlaces
import CodeSpan.Proofs.StandaloneWord

/-!
# The first use of an identifier

The search for a name passes over the places that overlap one it has found, but a place of an
identifier with no identifier character before it overlaps no earlier one. So no use of the name
is missed: the search for a plain identifier settles on the leftmost use in the code of the first
line that has one.
-/

namespace CodeSpan

/-- The name stands in a text behind `i` characters, with no identifier character before it and
a right boundary behind it. -/
def StandsAsName (name s : List Char) (i : Nat) : Prop :=
  Text.StandsAlone (fun c => !Text.isIdent c) isRightBoundary name s i

instance (name s : List Char) (i : Nat) : Decidable (StandsAsName name s i) :=
  inferInstanceAs (Decidable (Text.StandsAlone _ _ name s i))

section Identifier

variable {name s : List Char} {i : Nat} {r : ByteRange}

/-- A use of an identifier is reached, for no earlier place of it ends behind its beginning. -/
theorem StandsAsName.reached (h : StandsAsName name s i)
    (hname : ∀ c ∈ name, Text.isIdent c = true) (hne : name ≠ []) : Text.Reached name s i := by
  have hword : (name.any fun c => !Text.isIdent c) = false := by
    simpa [List.any_eq_false] using hname
  rcases Text.reached_or_overlapped h.here with hreached | ⟨j, hj, hreached, hlt⟩
  · exact hreached
  · have hle := h.add_le hreached.here hne hword hj
    omega

theorem isBounded_occurrenceAt_iff (hname : ∀ c ∈ name, Text.isIdent c = true) (hne : name ≠ [])
    (hhere : name <+: s.drop i) :
    isBounded name (Text.occurrenceAt name s i) = true ↔ StandsAsName name s i := by
  have hfirst : name.head?.any Text.isIdent = true := by
    rw [List.head?_eq_some_head hne, Option.any_some]
    exact hname _ (List.head_mem hne)
  have hlast : name.getLast?.any Text.isIdent = true := by
    rw [List.getLast?_eq_some_getLast hne, Option.any_some]
    exact hname _ (List.getLast_mem hne)
  rw [isBounded, hfirst, hlast, Bool.not_true, Bool.false_or, Bool.false_or, Bool.and_eq_true]
  constructor
  · rintro ⟨hleft, hright⟩
    exact ⟨hhere, hleft, hright⟩
  · intro h
    exact ⟨h.left_ok, h.right_ok⟩

theorem mem_boundedMatches_ident_iff (hname : ∀ c ∈ name, Text.isIdent c = true)
    (hne : name ≠ []) : r ∈ boundedMatches name s ↔
      ∃ i, StandsAsName name s i ∧ r = .ofOccurrence name (Text.occurrenceAt name s i) := by
  rw [mem_boundedMatches_iff hne]
  constructor
  · rintro ⟨i, hi, hbounded, rfl⟩
    exact ⟨i, (isBounded_occurrenceAt_iff hname hne hi.here).1 hbounded, rfl⟩
  · rintro ⟨i, hi, rfl⟩
    exact ⟨i, hi.reached hname hne, (isBounded_occurrenceAt_iff hname hne hi.here).2 hi, rfl⟩

theorem head?_boundedMatches_eq_none_iff (hname : ∀ c ∈ name, Text.isIdent c = true)
    (hne : name ≠ []) :
    (boundedMatches name s).head? = none ↔ ∀ i, ¬ StandsAsName name s i := by
  rw [List.head?_eq_none_iff, List.eq_nil_iff_forall_not_mem]
  constructor
  · intro h i hi
    exact h _ ((mem_boundedMatches_ident_iff hname hne).2 ⟨i, hi, rfl⟩)
  · intro h r hr
    obtain ⟨i, hi, -⟩ := (mem_boundedMatches_ident_iff hname hne).1 hr
    exact h i hi

theorem exists_of_head?_boundedMatches (hname : ∀ c ∈ name, Text.isIdent c = true)
    (hne : name ≠ []) (h : (boundedMatches name s).head? = some r) :
    ∃ i, StandsAsName name s i ∧ (∀ j < i, ¬ StandsAsName name s j) ∧
      r.start = Text.byteLength (s.take i) := by
  rw [boundedMatches, List.head?_map, List.head?_filter, Option.map_eq_some_iff] at h
  obtain ⟨o, hfirst, rfl⟩ := h
  obtain ⟨i, hi, rfl⟩ := (Text.mem_occurrences_iff hne).1 (List.mem_of_find?_eq_some hfirst)
  refine ⟨i, (isBounded_occurrenceAt_iff hname hne hi.here).1 (List.find?_some hfirst), ?_, rfl⟩
  intro j hj hstands
  have hmem := (Text.mem_occurrences_iff hne).2 ⟨j, hstands.reached hname hne, rfl⟩
  have hprefix := Text.before_prefix_of_find? hfirst hmem
    ((isBounded_occurrenceAt_iff hname hne hstands.here).2 hstands)
  have hle := hprefix.length_le
  rw [Text.length_before_occurrenceAt hne hi.here,
    Text.length_before_occurrenceAt hne hstands.here] at hle
  omega

theorem StandsAsName.exists_on_line {σ : CommentSyntax} {line code left body right tail : List Char}
    (h : StandsAsName name code i) (hname : ∀ c ∈ name, Text.isIdent c = true) (hne : name ≠ [])
    (hσ : σ.Delimited) (hs : σ.Stripped line code left body right tail) :
    ∃ before after, line = before ++ name ++ after ∧
      Text.byteLength before = Text.byteLength (code.take i) := by
  have hspace : ' ' ∉ name := by
    intro hmem
    have hident := hname ' ' hmem
    rw [Text.isIdent_eq_false_of_isBlank rfl] at hident
    cases hident
  obtain ⟨before, after, hline, hlen, -⟩ :=
    hs.exists_occurrence hσ hne hspace (Text.eq_append_occurrenceAt h.here)
  exact ⟨before, after, hline, hlen⟩

end Identifier

theorem Qualified.split?_eq_none {name : List Char} {separators : List (List Char)}
    (h : ∀ separator ∈ separators, ¬ separator <:+: name) : split? name separators = none := by
  cases hsplit : split? name separators with
  | none => rfl
  | some p =>
      obtain ⟨hfold, -⟩ := Option.filter_eq_some_iff.1 hsplit
      rcases mem_of_foldl_shorter hfold with hnone | hmem
      · cases hnone
      · obtain ⟨hsep, o, ho, -⟩ := mem_partings_iff.1 hmem
        have happ := Text.eq_append_of_lastOccurrence? ho
        exact absurd ⟨o.before, o.after, happ.symm⟩ (h _ hsep)

section Plain

variable {t : Source} {q : Query} {d : Dialect} {tier : Tier} {i : Nat} {r : ByteRange}

theorem matchTier?_plain (hhint : q.hint = none)
    (hplain : Qualified.split? q.name d.qualifiers = none) (line code : List Char) :
    (SearchPlan.ofQuery q d).matchTier? tier line code =
      if tier = .name then (boundedMatches q.name code).head? else none := by
  cases tier with
  | hint =>
      change q.hint.bind _ = none
      rw [hhint]
      rfl
  | qualified =>
      change (Qualified.split? q.name d.qualifiers).bind _ = none
      rw [hplain]
      rfl
  | name => rfl

theorem matchesAt_plain_iff (hhint : q.hint = none)
    (hplain : Qualified.split? q.name d.qualifiers = none) :
    MatchesAt t q d tier i r ↔ tier = .name ∧ ∃ line ∈ eligibleLines t q d, line.number = i ∧
      (boundedMatches q.name line.code).head? = some r := by
  simp only [matchesAt_iff, SearchPlan.candidate?_eq_some_iff, matchTier?_plain hhint hplain]
  constructor
  · rintro ⟨line, hmem, hmatch, hnumber, -⟩
    split at hmatch
    · next htier => exact ⟨htier, line, hmem, hnumber.symm, hmatch⟩
    · cases hmatch
  · rintro ⟨rfl, line, hmem, rfl, hmatch⟩
    exact ⟨line, hmem, by rw [if_pos rfl, hmatch], rfl, trivial⟩

theorem locate?_plain_eq_none_iff (hhint : q.hint = none)
    (hplain : Qualified.split? q.name d.qualifiers = none) :
    locate? t q d = none ↔
      ∀ line ∈ eligibleLines t q d, (boundedMatches q.name line.code).head? = none := by
  rw [locate?, Option.map_eq_none_iff, findCandidate?_eq_none_iff]
  simp only [matchesAt_plain_iff hhint hplain, Option.eq_none_iff_forall_ne_some]
  constructor
  · intro h line hmem r hr
    exact h .name line.number r ⟨rfl, line, hmem, rfl, hr⟩
  · rintro h tier i r ⟨-, line, hmem, -, hr⟩
    exact h line hmem r hr

theorem exists_line_of_locate?_plain (hhint : q.hint = none)
    (hplain : Qualified.split? q.name d.qualifiers = none) {p : Position}
    (h : locate? t q d = some p) : ∃ line ∈ eligibleLines t q d, line.number = p.line ∧
      (∀ line' ∈ eligibleLines t q d, line'.number < p.line →
        (boundedMatches q.name line'.code).head? = none) ∧
      ∃ r, (boundedMatches q.name line.code).head? = some r ∧
        p.column = columnAt line.text r.start := by
  obtain ⟨c, hc, rfl⟩ := Option.map_eq_some_iff.1 h
  obtain ⟨hmatch, hfirst, -⟩ := findCandidate?_eq_some_iff.1 hc
  obtain ⟨htier, line, hmem, hnumber, hr⟩ := (matchesAt_plain_iff hhint hplain).1 hmatch
  obtain ⟨hline, -, -⟩ := mem_eligibleLines_iff.1 hmem
  refine ⟨line, hmem, hnumber, ?_, c.range, hr, ?_⟩
  · intro line' hmem' hlt
    rw [Option.eq_none_iff_forall_ne_some]
    intro r hr
    exact hfirst line'.number hlt r
      ((matchesAt_plain_iff hhint hplain).2 ⟨htier, line', hmem', rfl, hr⟩)
  · change columnAt ((t.lines[c.line]?).getD []) c.range.start = _
    rw [← hnumber, hline, Option.getD_some]

/-- An identifier is located where its first use begins, on the first eligible line that has one
in its code, and it is not located just when there is no such line. -/
theorem locate?_identifier (t : Source) (q : Query) (d : Dialect) (hhint : q.hint = none)
    (hname : ∀ c ∈ q.name, Text.isIdent c = true)
    (hplain : ∀ separator ∈ d.qualifiers, ¬ separator <:+: q.name) :
    (locate? t q d = none ↔
      ∀ line ∈ eligibleLines t q d, ∀ i, ¬ StandsAsName q.name line.code i) ∧
    ∀ p, locate? t q d = some p → ∃ line ∈ eligibleLines t q d, line.number = p.line ∧
      (∀ line' ∈ eligibleLines t q d, line'.number < p.line →
        ∀ i, ¬ StandsAsName q.name line'.code i) ∧
      ∃ i, StandsAsName q.name line.code i ∧ (∀ j < i, ¬ StandsAsName q.name line.code j) ∧
        ∃ before after, line.text = before ++ q.name ++ after ∧ p.column = before.length ∧
          Text.byteLength before = Text.byteLength (line.code.take i) := by
  have hsplit := Qualified.split?_eq_none hplain
  refine ⟨?_, fun p h => ?_⟩
  · rw [locate?_plain_eq_none_iff hhint hsplit]
    simp only [head?_boundedMatches_eq_none_iff hname q.name_ne]
  · obtain ⟨line, hmem, hnumber, hnone, r, hr, hcolumn⟩ :=
      exists_line_of_locate?_plain hhint hsplit h
    obtain ⟨i, hstands, hleft, hstart⟩ := exists_of_head?_boundedMatches hname q.name_ne hr
    obtain ⟨hline, hcode, -⟩ := mem_eligibleLines_iff.1 hmem
    obtain ⟨left, body, right, tail, hs⟩ :=
      CommentSyntax.exists_stripped_of_classes d.comments_delimited hline hcode
    obtain ⟨before, after, htext, hlen⟩ :=
      hstands.exists_on_line hname q.name_ne d.comments_delimited hs
    refine ⟨line, hmem, hnumber, ?_, i, hstands, hleft, before, after, htext, ?_, hlen⟩
    · intro line' hmem' hlt
      exact (head?_boundedMatches_eq_none_iff hname q.name_ne).1 (hnone line' hmem' hlt)
    · rw [hcolumn, hstart, ← hlen, htext, List.append_assoc, columnAt_append]

/-- A name is located behind a longer identifier and behind a blanked comment of several bytes,
but not in a comment, nor where it is defined or a dot follows it. -/
theorem locate?_identifier_brace :
    let line := "run_2(/* é run */ run.x, run);".toList
    let t : Source := ⟨["// run".toList, "fn run(x)".toList, line]⟩
    ∃ q : Query, q.name = "run".toList ∧ locate? t q Dialect.brace = some ⟨2, 25⟩ ∧
      ∃ code i, StandsAsName "run".toList code i ∧ (∀ j < i, ¬ StandsAsName "run".toList code j) ∧
        ∃ before after, line = before ++ "run".toList ++ after ∧ before.length = 25 ∧
          Text.byteLength before = Text.byteLength (code.take i) := by
  intro line t
  let q : Query := ⟨"run".toList, none, .usage, by decide, by simp⟩
  have hident : q.name.all Text.isIdent = true := by decide +kernel
  have h : locate? t q Dialect.brace = some ⟨2, 25⟩ := by decide +kernel
  obtain ⟨found, hmem, hnumber, -, i, hstands, hleft, before, after, htext, hcolumn, hlen⟩ :=
    (locate?_identifier t q Dialect.brace rfl (List.all_eq_true.1 hident) (by decide)).2 _ h
  have hline := (mem_eligibleLines_iff.1 hmem).1
  rw [hnumber] at hline
  have htext' : line = found.text := Option.some.inj hline
  exact ⟨q, rfl, h, found.code, i, hstands, hleft, before, after, htext' ▸ htext,
    hcolumn.symm, hlen⟩

end Plain

end CodeSpan
