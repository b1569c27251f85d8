import CodeSpan.Proofs.QualifiedName

/-!
# What stands at a located position

Every place that is reported on a line begins with a text that stands there: a leaf, the name or
the hint. Such a place is told by the characters before it, so its byte offset never falls inside
a character, and its column is that of a character of the line.
-/

namespace CodeSpan

/-- A text stands on a line from a byte offset on, which falls between two characters. -/
def Text.BeginsAt (s line : List Char) (offset : Nat) : Prop :=
  ∃ before after, line = before ++ s ++ after ∧ offset = Text.byteLength before

variable {s line code left body right tail : List Char} {offset : Nat} {r : ByteRange}

theorem Text.BeginsAt.column (h : Text.BeginsAt s line offset) (hne : s ≠ []) :
    Text.charsBefore? line offset = some (columnAt line offset) ∧
      columnAt line offset < line.length ∧ s <+: line.drop (columnAt line offset) := by
  obtain ⟨before, after, rfl, rfl⟩ := h
  have hpos := List.length_pos_of_ne_nil hne
  rw [List.append_assoc, columnAt_append, Text.charsBefore?_byteLength, List.drop_left]
  refine ⟨rfl, ?_, List.prefix_append _ _⟩
  simp only [List.length_append]
  omega

theorem beginsAt_of_mem_boundedMatches (h : r ∈ boundedMatches s line) :
    Text.BeginsAt s line r.start := by
  obtain ⟨before, after, hline, -, rfl⟩ := exists_of_mem_boundedMatches h
  exact ⟨before, after, hline, rfl⟩

theorem Qualified.beginsAt_of_mem_findIn {p : Qualified} (h : r ∈ p.findIn line) :
    Text.BeginsAt p.leaf line r.start := by
  obtain ⟨before, after, hline, -, rfl⟩ := Qualified.exists_of_mem_findIn h
  exact ⟨before ++ p.separator, after, hline, rfl⟩

theorem CommentSyntax.Stripped.beginsAt {σ : CommentSyntax}
    (hs : σ.Stripped line code left body right tail) (hσ : σ.Delimited) (hne : s ≠ [])
    (hspace : ' ' ∉ s) (h : Text.BeginsAt s code offset) : Text.BeginsAt s line offset := by
  obtain ⟨before, after, hcode, rfl⟩ := h
  obtain ⟨before', after', hline, hlen, -⟩ := hs.exists_occurrence hσ hne hspace hcode
  exact ⟨before', after', hline, hlen.symm⟩

namespace SearchPlan

variable {plan : SearchPlan}

/-- For a qualified name the leaf stands at the place reported for a hint, and for any other name
the name itself or the hint. -/
theorem beginsAt_of_matchHint? (h : plan.matchHint? line code = some r) :
    (∀ p, plan.qualified = some p → Text.BeginsAt p.leaf line r.start) ∧
      (plan.qualified = none → Text.BeginsAt plan.query.name line r.start ∨
        ∃ hint ∈ plan.query.hint, Text.BeginsAt hint line r.start) := by
  obtain ⟨hint, hmem, place, hplace, -, hrefine⟩ := exists_of_matchHint? h
  rcases refineHint?_cases hrefine with ⟨p, hp, hfound, -⟩ | ⟨hnone, rfl | ⟨hfound, -⟩⟩
  · refine ⟨fun p' hp' => ?_, fun hnone => ?_⟩
    · rw [hp, Option.some.injEq] at hp'
      exact hp' ▸ Qualified.beginsAt_of_mem_findIn hfound
    · rw [hp] at hnone
      cases hnone
  · refine ⟨fun p hp => ?_, fun _ => .inr ⟨hint, hmem, beginsAt_of_mem_boundedMatches hplace⟩⟩
    rw [hnone] at hp
    cases hp
  · refine ⟨fun p hp => ?_, fun _ => .inl (beginsAt_of_mem_boundedMatches hfound)⟩
    rw [hnone] at hp
    cases hp

end SearchPlan

section Stock

variable {kind : DialectKind} {q : Query} {t : Source} {c : Candidate} {parts : Qualified}

theorem beginsAt_leaf (hs : kind.dialect.comments.Stripped line code left body right tail)
    (hspace : ' ' ∉ q.name) (hsplit : Qualified.split? q.name kind.dialect.qualifiers = some parts)
    (hc : findCandidate? t q kind.dialect = some c)
    (hmatch : (SearchPlan.ofQuery q kind.dialect).matchTier? c.tier line code = some c.range) :
    Text.BeginsAt parts.leaf line c.range.start := by
  obtain ⟨hleaf, hsuffix⟩ := Qualified.leaf_of_split? hsplit
  have hparts := ((Qualified.split?_eq_some_iff kind.dialect.qualifiers_ne
    kind.separators_apart).1 hsplit).1
  cases htier : c.tier with
  | hint =>
      rw [htier] at hmatch
      exact (SearchPlan.beginsAt_of_matchHint? hmatch).1 parts hsplit
  | qualified =>
      rw [htier] at hmatch
      obtain ⟨p, hp, hfound⟩ := Option.bind_eq_some_iff.1 hmatch
      have hp' : some parts = some p := hsplit.symm.trans hp
      cases hp'
      have hcode := Qualified.beginsAt_of_mem_findIn
        (List.mem_of_mem_head? (Option.mem_def.2 hfound))
      exact hs.beginsAt kind.dialect.comments_delimited hleaf
        (fun hmem => hspace (hsuffix.subset hmem)) hcode
  | name => exact absurd htier (tier_ne_name hparts hleaf hc)

theorem beginsAt_name_or_hint
    (hs : kind.dialect.comments.Stripped line code left body right tail) (hspace : ' ' ∉ q.name)
    (hsplit : Qualified.split? q.name kind.dialect.qualifiers = none)
    (hmatch : (SearchPlan.ofQuery q kind.dialect).matchTier? c.tier line code = some c.range) :
    Text.BeginsAt q.name line c.range.start ∨
      ∃ hint ∈ q.hint, Text.BeginsAt hint line c.range.start := by
  cases htier : c.tier with
  | hint =>
      rw [htier] at hmatch
      exact (SearchPlan.beginsAt_of_matchHint? hmatch).2 hsplit
  | qualified =>
      rw [htier] at hmatch
      obtain ⟨p, hp, -⟩ := Option.bind_eq_some_iff.1 hmatch
      have hp' : none = some p := hsplit.symm.trans hp
      cases hp'
  | name =>
      rw [htier] at hmatch
      have hcode := beginsAt_of_mem_boundedMatches
        (List.mem_of_mem_head? (Option.mem_def.2 hmatch))
      exact .inl (hs.beginsAt kind.dialect.comments_delimited q.name_ne hspace hcode)

/-- In the dialects in stock, a name without spaces is located at a character of a line of the
text, at a byte offset that falls between two characters. The line goes on there with the leaf
of a qualified name, and otherwise with the name or with a hint that was given. -/
theorem located_at_character (kind : DialectKind) (t : Source) (q : Query) (hspace : ' ' ∉ q.name)
    (p : Position) (h : locate? t q kind.dialect = some p) :
    p.line < t.size ∧ ∃ c line, findCandidate? t q kind.dialect = some c ∧ c.line = p.line ∧
      t.lines[p.line]? = some line ∧ p.column < line.length ∧
      Text.charsBefore? line c.range.start = some p.column ∧
      match Qualified.split? q.name kind.dialect.qualifiers with
      | some parts => parts.leaf <+: line.drop p.column
      | none => q.name <+: line.drop p.column ∨ ∃ hint ∈ q.hint, hint <+: line.drop p.column := by
  obtain ⟨c, line, code, hc, hnumber, hline, hcode, hcolumn, hmatch⟩ := exists_match_of_locate? h
  obtain ⟨left, body, right, tail, hs⟩ :=
    CommentSyntax.exists_stripped_of_classes kind.dialect.comments_delimited hline hcode
  refine ⟨(List.getElem?_eq_some_iff.1 hline).1, c, line, hc, hnumber, hline, ?_⟩
  rw [hcolumn]
  cases hsplit : Qualified.split? q.name kind.dialect.qualifiers with
  | some parts =>
      obtain ⟨hchars, hlt, hprefix⟩ :=
        (beginsAt_leaf hs hspace hsplit hc hmatch).column (Qualified.leaf_of_split? hsplit).1
      exact ⟨hlt, hchars, hprefix⟩
  | none =>
      rcases beginsAt_name_or_hint hs hspace hsplit hmatch with hname | ⟨hint, hmem, hhint⟩
      · obtain ⟨hchars, hlt, hprefix⟩ := hname.column q.name_ne
        exact ⟨hlt, hchars, .inl hprefix⟩
      · obtain ⟨hchars, hlt, hprefix⟩ := hhint.column (q.hint_ne hint hmem)
        exact ⟨hlt, hchars, .inr ⟨hint, hmem, hprefix⟩⟩

theorem located_at_character_brace :
    let line := "  é /* ñ::ñ */ = Ä::ñ(1);".toList
    let t : Source := ⟨["// Ä::ñ".toList, line]⟩
    ∃ q : Query, q.name = "Ä::ñ".toList ∧ locate? t q DialectKind.brace.dialect = some ⟨1, 20⟩ ∧
      "ñ".toList <+: line.drop 20 := by
  intro line t
  let q : Query := ⟨"Ä::ñ".toList, none, .usage, by decide, by simp⟩
  have h : locate? t q DialectKind.brace.dialect = some ⟨1, 20⟩ := by decide +kernel
  have hsplit : Qualified.split? q.name DialectKind.brace.dialect.qualifiers =
      some ⟨"::".toList, "ñ".toList⟩ := by decide
  obtain ⟨-, c, text, -, -, htext, -, -, hleaf⟩ :=
    located_at_character .brace t q (by decide) ⟨1, 20⟩ h
  cases htext
  rw [hsplit] at hleaf
  exact ⟨q, rfl, h, hleaf⟩

end Stock

end CodeSpan
