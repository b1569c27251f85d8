import CodeSpan.Navigation
import CodeSpan.Proofs.Candidate
import CodeSpan.Proofs.Reextraction

/-!
# Resolving inside a resolved span

A name located on a line that is code is located again when the text is cut down to lines from
there on: the scan is outside every comment at the cut, the matches left are those of the whole
text, and none of them ranks higher. The span of the located line then reproduces itself.
-/

namespace CodeSpan

variable {t : Source} {q : Query} {d : Dialect} {first last : Nat}

/-- Cutting a text on a line that is code keeps the classes of the lines left. -/
theorem classes_segment (hle : first ≤ last) {code : List Char}
    (hcode : (d.comments.classes t.lines)[first]? = some (.code code)) :
    d.comments.classes (t.segment first last).lines =
      ((d.comments.classes t.lines).take (last + 1)).drop first := by
  have hout : d.comments.regionAfter .outside ((t.lines.take (last + 1)).take first) =
      .outside := by
    rw [List.take_take, Nat.min_eq_left (by omega)]
    exact d.comments.regionAfter_of_code hcode
  rw [Source.segment, ← d.comments.classes_drop_of_outside hout, CommentSyntax.classes_take]

theorem matchesAt_segment_iff (hle : first ≤ last) {code : List Char}
    (hcode : (d.comments.classes t.lines)[first]? = some (.code code)) {tier : Tier} {j : Nat}
    {r : ByteRange} :
    MatchesAt (t.segment first last) q d tier j r ↔
      first + j ≤ last ∧ MatchesAt t q d tier (first + j) r := by
  have hget : ∀ {α : Type} (l : List α),
      ((l.take (last + 1)).drop first)[j]? = if first + j ≤ last then l[first + j]? else none := by
    intro α l
    rw [List.getElem?_drop, List.getElem?_take]
    simp only [Nat.lt_succ_iff]
  unfold MatchesAt
  rw [classes_segment hle hcode, Source.segment]
  simp only [hget]
  by_cases hj : first + j ≤ last
  · simp [hj]
  · simp [hj]

theorem code_of_findCandidate? {c : Candidate} (h : findCandidate? t q d = some c) :
    ∃ code, (d.comments.classes t.lines)[c.line]? = some (.code code) := by
  obtain ⟨⟨_, code, -, hcode, -⟩, -⟩ := findCandidate?_eq_some_iff.1 h
  exact ⟨code, hcode⟩

theorem findCandidate?_segment {c : Candidate} (h : findCandidate? t q d = some c)
    (hlast : c.line ≤ last) :
    findCandidate? (t.segment c.line last) q d = some ⟨0, c.range, c.tier⟩ := by
  obtain ⟨code, hcode⟩ := code_of_findCandidate? h
  obtain ⟨hmatch, -, hbetter⟩ := findCandidate?_eq_some_iff.1 h
  refine findCandidate?_eq_some_iff.2 ⟨?_, ?_, ?_⟩
  · exact (matchesAt_segment_iff hlast hcode).2 ⟨hlast, hmatch⟩
  · intro j hj
    exact absurd hj (Nat.not_lt_zero j)
  · intro tier hrank j r hmatch'
    exact hbetter tier hrank _ r ((matchesAt_segment_iff hlast hcode).1 hmatch').2

theorem locate?_segment {p : Position} (h : locate? t q d = some p) (hlast : p.line ≤ last) :
    locate? (t.segment p.line last) q d = some ⟨0, p.column⟩ := by
  obtain ⟨c, hc, hp⟩ := Option.map_eq_some_iff.1 h
  subst hp
  change c.line ≤ last at hlast
  have hline : (t.segment c.line last).line? 0 = t.line? c.line :=
    Source.getElem?_segment hlast
  rw [locate?, findCandidate?_segment hc hlast, Option.map_some, hline]

/-- A scan that starts afresh on the line of a located name agrees from there on with the scan
of the whole text: it reads the same comments, leaves the same code and stands in the same
region after every line. -/
theorem scan_from_located (t : Source) (q : Query) (d : Dialect) (p : Position)
    (h : locate? t q d = some p) :
    p.line < t.size ∧ d.comments.regionAfter .outside (t.lines.take p.line) = .outside ∧
      (∀ i, p.line ≤ i → (d.comments.scan .outside (t.lines.drop p.line))[i - p.line]? =
        (d.comments.scan .outside t.lines)[i]?) ∧
      blockClasses t p.line d = (d.comments.classes t.lines).drop p.line := by
  obtain ⟨c, hc, rfl⟩ := Option.map_eq_some_iff.1 h
  obtain ⟨code, hcode⟩ := code_of_findCandidate? hc
  have hline : c.line < t.size := by
    obtain ⟨hlt, -⟩ := List.getElem?_eq_some_iff.1 hcode
    rwa [CommentSyntax.length_classes] at hlt
  have hout := d.comments.regionAfter_of_code hcode
  refine ⟨hline, hout, ?_, (d.comments.classes_drop_of_outside hout).symm⟩
  intro i hi
  have hsplit : t.lines.take i =
      t.lines.take c.line ++ (t.lines.drop c.line).take (i - c.line) := by
    rw [← List.take_add, Nat.add_sub_cancel' hi]
  rw [CommentSyntax.getElem?_scan, CommentSyntax.getElem?_scan, List.getElem?_drop,
    Nat.add_sub_cancel' hi, hsplit, CommentSyntax.regionAfter_append, hout]

theorem scan_from_located_brace :
    let t : Source :=
      ⟨["/* run", "*/ x", "run(/* 1 */); /* 2", "\x7d */", "\x7d"].map String.toList⟩
    let q : Query := ⟨"run".toList, none, .usage, by decide, by simp⟩
    locate? t q Dialect.brace = some ⟨2, 0⟩ ∧
      (Dialect.brace.comments.scan .outside (t.lines.drop 2))[1]? =
        (Dialect.brace.comments.scan .outside t.lines)[3]? := by
  intro t q
  have h : locate? t q Dialect.brace = some ⟨2, 0⟩ := by decide +kernel
  exact ⟨h, (scan_from_located t q Dialect.brace ⟨2, 0⟩ h).2.2.1 3 (by decide)⟩

theorem resolve_eq_ok_iff {r : Resolution} :
    resolve t q d = some (.ok r) ↔
      locate? t q d = some r.position ∧ extract t r.position.line d = some (.ok r.span) := by
  obtain ⟨p, span⟩ := r
  rw [resolve]
  cases hp : locate? t q d with
  | none => simp
  | some p' =>
      dsimp only
      rw [Option.map_eq_some_iff, Option.some.injEq]
      constructor
      · rintro ⟨outcome, he, hr⟩
        cases outcome with
        | error e => cases hr
        | ok span' =>
            cases hr
            exact ⟨rfl, he⟩
      · rintro ⟨rfl, he⟩
        exact ⟨.ok span, he, rfl⟩

/-- A resolved span resolves to itself: the same query finds the name on its first line, in the
same column, and extracts the same text. -/
theorem resolve_own_span (s : List Char) (q : Query) (d : Dialect) (r : Resolution)
    (h : resolve (.ofText s) q d = some (.ok r)) :
    ∃ own, resolve (.ofText r.span.text) q d = some (.ok own) ∧
      own.position = ⟨0, r.position.column⟩ ∧ own.span.text = r.span.text ∧
      own.span.kind = r.span.kind ∧ own.span.lineCount = r.span.lineCount := by
  obtain ⟨hp, he⟩ := resolve_eq_ok_iff.1 h
  obtain ⟨hstart, hle, hlast, htext⟩ := bounds_of_extract he
  have hsource : Source.ofText r.span.text =
      (Source.ofText s).segment r.position.line r.span.endLine := by
    rw [htext, Source.ofText_join (Source.split_ofText s) hle (by omega)]
  let own : Resolution :=
    ⟨⟨0, r.position.column⟩, ⟨0, r.span.endLine - r.position.line, r.span.text, r.span.kind⟩⟩
  refine ⟨own, ?_, rfl, rfl, rfl, ?_⟩
  · rw [hsource]
    exact resolve_eq_ok_iff.2 ⟨locate?_segment hp hle, extract_segment he⟩
  · rw [BlockSpan.lineCount, BlockSpan.lineCount, hstart, Nat.sub_zero]

theorem resolve_own_span_keyword :
    let q : Query := ⟨"run".toList, none, .usage, by decide, by simp⟩
    let r : Resolution := ⟨⟨2, 2⟩, ⟨2, 4, "  run do\n  # end\n  end".toList, .balanced⟩⟩
    resolve (.ofText "def run\n# run\n  run do\n  # end\n  end\nend".toList) q
        Dialect.keyword = some (.ok r) ∧
      ∃ own, resolve (.ofText r.span.text) q Dialect.keyword = some (.ok own) ∧
        own.position = ⟨0, 2⟩ ∧ own.span.text = r.span.text := by
  intro q r
  have h : resolve (.ofText "def run\n# run\n  run do\n  # end\n  end\nend".toList) q
      Dialect.keyword = some (.ok r) := by decide +kernel
  obtain ⟨own, hown, hpos, htext, -⟩ := resolve_own_span _ q Dialect.keyword r h
  exact ⟨h, own, hown, hpos, htext⟩

end CodeSpan
