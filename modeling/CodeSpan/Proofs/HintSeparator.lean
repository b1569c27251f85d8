import CodeSpan.Proofs.LiveCode

/-!
# The separator of a qualified name in a hint

For a qualified name the place of a hint is narrowed down to a place of the leaf that lies within
it. The separator stands before the leaf on the line, but only the leaf is compared with the place
of the hint. So the hint holds the separator as well, unless it begins behind the beginning of the
separator: then it starts with the leaf, or with an end of the separator and the leaf.
-/

namespace CodeSpan

theorem Text.prefix_of_byteLength_le {s t line : List Char} (hs : s <+: line) (ht : t <+: line)
    (h : byteLength s ≤ byteLength t) : s <+: t := by
  rcases List.prefix_or_prefix_of_prefix hs ht with hst | hts
  · exact hst
  · rw [eq_of_prefix_of_byteLength_le hts h]

namespace Qualified

variable {p : Qualified} {line hint before lead : List Char} {r place : ByteRange} {column : Nat}

/-- A hint behind `before` holds the separator and, in the given column, the leaf. -/
def HeldBy (p : Qualified) (hint before : List Char) (column : Nat) : Prop :=
  ∃ lead rest, hint = lead ++ p.separator ++ p.leaf ++ rest ∧
    column = (before ++ lead ++ p.separator).length

/-- A hint behind `before` begins with at most an end of the separator and then, in the given
column, the leaf. The beginning of the separator stands before the hint. -/
def CutBy (p : Qualified) (hint before : List Char) (column : Nat) : Prop :=
  ∃ missing present rest, p.separator = missing ++ present ∧ missing ≠ [] ∧ missing <:+ before ∧
    hint = present ++ p.leaf ++ rest ∧ column = (before ++ present).length

theorem HeldBy.not_cutBy (h : p.HeldBy hint before column) : ¬ p.CutBy hint before column := by
  obtain ⟨lead, -, -, hheld⟩ := h
  rintro ⟨missing, present, -, hseparator, hmissing, -, -, hcut⟩
  have hpos := List.length_pos_of_ne_nil hmissing
  have hlen := congrArg List.length hseparator
  rw [hheld] at hcut
  simp only [List.length_append] at hlen hcut
  omega

theorem CutBy.exists_prefix (h : p.CutBy hint before column) :
    ∃ present, present <:+ p.separator ∧ present ≠ p.separator ∧ present ++ p.leaf <+: hint := by
  obtain ⟨missing, present, rest, hseparator, hmissing, -, rfl, -⟩ := h
  refine ⟨present, ⟨missing, hseparator.symm⟩, fun heq => hmissing ?_, List.prefix_append _ _⟩
  have hlen := congrArg List.length hseparator
  rw [heq, List.length_append] at hlen
  exact List.eq_nil_of_length_eq_zero (by omega)

theorem heldBy_or_cutBy (hstart : before <+: lead ++ p.separator)
    (hstop : lead ++ p.separator ++ p.leaf <+: before ++ hint) :
    p.HeldBy hint before (lead ++ p.separator).length ∨
      p.CutBy hint before (lead ++ p.separator).length := by
  obtain ⟨inner, hinner⟩ := hstart
  obtain ⟨rest, hrest⟩ := hstop
  have htext : hint = inner ++ p.leaf ++ rest := by
    rw [← hinner] at hrest
    simp only [List.append_assoc] at hrest ⊢
    exact (List.append_cancel_left hrest).symm
  rcases List.append_eq_append_iff.1 hinner with ⟨more, rfl, rfl⟩ | ⟨missing, rfl, hmissing⟩
  · exact .inl ⟨more, rest, htext, by simp only [List.append_assoc]⟩
  · rcases eq_or_ne missing [] with rfl | hne
    · refine .inl ⟨[], rest, ?_, ?_⟩
      · rw [htext, hmissing]
        rfl
      · simp
    · refine .inr ⟨missing, inner, rest, hmissing, hne, List.suffix_append _ _, htext, ?_⟩
      rw [hinner]

theorem heldBy_or_cutBy_of_within (hr : r ∈ p.findIn line)
    (hplace : place ∈ boundedMatches hint line) (hwithin : r.within place = true) :
    ∃ before after, line = before ++ hint ++ after ∧ place.start = Text.byteLength before ∧
      (p.HeldBy hint before (columnAt line r.start) ∨
        p.CutBy hint before (columnAt line r.start)) := by
  obtain ⟨before, after, hhint, -, rfl⟩ := exists_of_mem_boundedMatches hplace
  obtain ⟨lead, tail, hleaf, -, rfl⟩ := Qualified.exists_of_mem_findIn hr
  simp only [ByteRange.within, Bool.and_eq_true, decide_eq_true_eq] at hwithin
  have hline : line = lead ++ p.separator ++ (p.leaf ++ tail) := by
    rw [hleaf, List.append_assoc]
  have hcolumn : columnAt line (Text.byteLength (lead ++ p.separator)) =
      (lead ++ p.separator).length := by
    rw [hline, columnAt_append]
  refine ⟨before, after, hhint, rfl, ?_⟩
  rw [hcolumn]
  apply heldBy_or_cutBy
  · refine Text.prefix_of_byteLength_le ?_ (hline ▸ List.prefix_append _ _) hwithin.1
    rw [hhint, List.append_assoc]
    exact List.prefix_append _ _
  · refine Text.prefix_of_byteLength_le (hleaf ▸ List.prefix_append _ _)
      (hhint ▸ List.prefix_append _ _) ?_
    simpa only [Text.byteLength_append] using hwithin.2

end Qualified

/-- A position found for the hint of a qualified name is that of its leaf within a place of the
hint that begins in code. The hint holds the separator and the leaf exactly if it does not begin
behind the beginning of that separator, so always if it does not begin with the leaf, or with the
leaf behind an end of the separator. -/
theorem located_leaf_in_hint (t : Source) (q : Query) (d : Dialect) (p : Qualified)
    (hsplit : Qualified.split? q.name d.qualifiers = some p) (found : Position)
    (h : locate? t q d = some found)
    (htier : (findCandidate? t q d).map (·.tier) = some .hint) :
    ∃ hint ∈ q.hint, ∃ line code before after, t.lines[found.line]? = some line ∧
      (d.comments.classes t.lines)[found.line]? = some (.code code) ∧
      line = before ++ hint ++ after ∧
      SearchPlan.startsInCode line code (Text.byteLength before) = true ∧
      (p.HeldBy hint before found.column ↔ ¬ p.CutBy hint before found.column) ∧
      ((∀ present, present <:+ p.separator → present ≠ p.separator →
        ¬ present ++ p.leaf <+: hint) → p.HeldBy hint before found.column) := by
  obtain ⟨c, line, code, hc, -, hline, hcode, hcolumn, hmatch⟩ := exists_match_of_locate? h
  rw [hc, Option.map_some, Option.some.injEq] at htier
  rw [htier] at hmatch
  obtain ⟨hint, hmem, place, hplace, hstarts, hrefine⟩ := SearchPlan.exists_of_matchHint? hmatch
  obtain ⟨r, hr, hwithin, hrange⟩ : ∃ r ∈ p.findIn line, r.within place = true ∧ c.range = r := by
    rcases SearchPlan.refineHint?_cases hrefine with ⟨p', hp', hr, hwithin⟩ | ⟨hnone, -⟩
    · have hp : some p = some p' := hsplit.symm.trans hp'
      cases hp
      exact ⟨_, hr, hwithin, rfl⟩
    · have hsome : some p = none := hsplit.symm.trans hnone
      cases hsome
  obtain ⟨before, after, hhint, hbefore, hcases⟩ :=
    Qualified.heldBy_or_cutBy_of_within hr hplace hwithin
  rw [← hrange, ← hcolumn] at hcases
  refine ⟨hint, hmem, line, code, before, after, hline, hcode, hhint, hbefore ▸ hstarts,
    ⟨Qualified.HeldBy.not_cutBy, hcases.resolve_right⟩, fun hwhole => ?_⟩
  refine hcases.resolve_right fun hcut => ?_
  obtain ⟨present, hsuffix, hne, hprefix⟩ := hcut.exists_prefix
  exact hwhole present hsuffix hne hprefix

theorem located_leaf_in_hint_brace :
    let t : Source := ⟨["y = Foo::bar(2);", "x = /* ñ */ Foo::bar(1);"].map String.toList⟩
    let p : Qualified := ⟨"::".toList, "bar".toList⟩
    ∃ q, Query.ofText "Foo::bar".toList (some "Foo::bar(1)".toList) .usage = .ok q ∧
      Qualified.split? q.name Dialect.brace.qualifiers = some p ∧
      locate? t q Dialect.brace = some ⟨1, 17⟩ ∧
      (findCandidate? t q Dialect.brace).map (·.tier) = some .hint ∧
      ∃ before, p.HeldBy "Foo::bar(1)".toList before 17 := by
  intro t p
  let q : Query :=
    ⟨"Foo::bar".toList, some "Foo::bar(1)".toList, .usage, by decide, by simp⟩
  have hsplit : Qualified.split? q.name Dialect.brace.qualifiers = some p := by decide
  have hfound : findCandidate? t q Dialect.brace = some ⟨1, ⟨18, 21⟩, .hint⟩ := by decide +kernel
  have h : locate? t q Dialect.brace = some ⟨1, 17⟩ := by
    rw [locate?, hfound]
    rfl
  have htier : (findCandidate? t q Dialect.brace).map (·.tier) = some .hint := by
    rw [hfound]
    rfl
  obtain ⟨hint, hmem, -, -, before, -, -, -, -, -, -, hheld⟩ :=
    located_leaf_in_hint t q Dialect.brace p hsplit ⟨1, 17⟩ h htier
  cases hmem
  refine ⟨q, rfl, hsplit, h, htier, before, hheld fun present hsuffix hne => ?_⟩
  have hcases : present ∈ p.separator.tails := (List.mem_tails _ _).2 hsuffix
  have hends : ∀ s ∈ p.separator.tails, s ≠ p.separator →
      ¬ s ++ p.leaf <+: "Foo::bar(1)".toList := by decide
  exact hends present hcases hne

/-- A hint that begins with the leaf is taken on a line where the separator stands before it,
although the whole name stands on an earlier line. -/
theorem not_located_leaf_in_hint :
    let t : Source := ⟨["y = Foo::bar(2)", "x = Foo::bar(1)"].map String.toList⟩
    let p : Qualified := ⟨"::".toList, "bar".toList⟩
    ∃ q, Query.ofText "Foo::bar".toList (some "bar(1)".toList) .usage = .ok q ∧
      Qualified.split? q.name Dialect.brace.qualifiers = some p ∧
      locate? t q Dialect.brace = some ⟨1, 9⟩ ∧
      (findCandidate? t q Dialect.brace).map (·.tier) = some .hint ∧
      ∀ hint ∈ q.hint, ¬ p.separator <:+: hint := by
  intro t p
  let q : Query := ⟨"Foo::bar".toList, some "bar(1)".toList, .usage, by decide, by simp⟩
  have hfound : findCandidate? t q Dialect.brace = some ⟨1, ⟨9, 12⟩, .hint⟩ := by decide +kernel
  refine ⟨q, rfl, by decide, ?_, ?_, ?_⟩
  · rw [locate?, hfound]
    rfl
  · rw [hfound]
    rfl
  · rintro hint hmem
    cases hmem
    decide

end CodeSpan
