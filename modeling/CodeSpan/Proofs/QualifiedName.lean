import CodeSpan.Proofs.LiveCode
import CodeSpan.Proofs.ReachedPlaces

/-!
# Qualified names

A qualified name is parted at its last separator, and in the dialects in stock only one separator
stands there. Its leaf, with the separator before it, never overlaps itself when it ends as an
identifier does, so a line on which the whole name stands has a place of the leaf behind its
separator, and the name itself is never what is located.
-/

namespace CodeSpan

namespace Text

variable {c : Char}

def asciiIdentRanges : List (Nat × Nat) :=
  [(0x30, 0x39), (0x41, 0x5A), (0x5F, 0x5F), (0x61, 0x7A)]

def identRanges : List (Nat × Nat) :=
  asciiIdentRanges ++ (alphabeticRanges ++ (decimalRanges ++ otherNumberRanges))

theorem inRanges_asciiIdentRanges (h : c = '_' ∨ c.isAlpha = true ∨ c.isDigit = true) :
    inRanges asciiIdentRanges c = true := by
  unfold Char.isAlpha Char.isUpper Char.isLower Char.isDigit at h
  simp only [Bool.or_eq_true, Bool.and_eq_true, decide_eq_true_eq, ge_iff_le,
    UInt32.le_iff_toNat_le] at h
  change c = '_' ∨ ((65 ≤ c.toNat ∧ c.toNat ≤ 90) ∨ 97 ≤ c.toNat ∧ c.toNat ≤ 122) ∨
    48 ≤ c.toNat ∧ c.toNat ≤ 57 at h
  rw [inRanges_iff]
  rcases h with rfl | (hupper | hlower) | hdigit
  · exact ⟨(0x5F, 0x5F), by decide, by decide⟩
  · exact ⟨(0x41, 0x5A), by decide, hupper⟩
  · exact ⟨(0x61, 0x7A), by decide, hlower⟩
  · exact ⟨(0x30, 0x39), by decide, hdigit⟩

theorem inRanges_identRanges (h : isIdent c = true) : inRanges identRanges c = true := by
  simp only [isIdent, isAlphabetic, isNumeric, isDecimal, Bool.or_eq_true, beq_iff_eq] at h
  simp only [identRanges, inRanges_append, Bool.or_eq_true]
  rcases h with (hline | halpha | hletter) | (hdigit | hdecimal) | hnumber
  · exact .inl (inRanges_asciiIdentRanges (.inl hline))
  · exact .inl (inRanges_asciiIdentRanges (.inr (.inl halpha)))
  · exact .inr (.inl hletter)
  · exact .inl (inRanges_asciiIdentRanges (.inr (.inr hdigit)))
  · exact .inr (.inr (.inl hdecimal))
  · exact .inr (.inr (.inr hnumber))

def signRanges : List (Nat × Nat) :=
  [(0x21, 0x2F), (0x3A, 0x40), (0x5B, 0x5E), (0x60, 0x60), (0x7B, 0x7E)]

/-- Blanks and signs belong to no identifier: the ranges of the classes do not meet. -/
theorem isIdent_eq_false (h : inRanges (blankRanges ++ signRanges) c = true) :
    isIdent c = false := by
  have hapart : ∀ r ∈ blankRanges ++ signRanges, ∀ r' ∈ identRanges,
      r.2 < r'.1 ∨ r'.2 < r.1 := by
    decide +kernel
  have hident := inRanges_eq_false_of_apart hapart h
  by_contra hc
  rw [inRanges_identRanges (by simpa using hc)] at hident
  cases hident

theorem isIdent_eq_false_of_isBlank (h : isBlank c = true) : isIdent c = false :=
  isIdent_eq_false (by rw [inRanges_append, Bool.or_eq_true]; exact .inl h)

theorem isIdent_eq_false_of_isSign (h : inRanges signRanges c = true) : isIdent c = false :=
  isIdent_eq_false (by rw [inRanges_append, Bool.or_eq_true]; exact .inr h)

end Text

theorem isIdent_eq_false_of_isRightBoundary {c : Char} (h : isRightBoundary c = true) :
    Text.isIdent c = false := by
  have hsigns : "()\x7b\x7d[]<>|,;".toList.all (Text.inRanges Text.signRanges) = true := rfl
  rw [isRightBoundary, Bool.or_eq_true, List.contains_iff_mem] at h
  rcases h with hblank | hsign
  · exact Text.isIdent_eq_false_of_isBlank hblank
  · exact Text.isIdent_eq_false_of_isSign (List.all_eq_true.1 hsigns c hsign)

namespace Qualified

variable {name code before after : List Char} {separators : List (List Char)} {p p' : Qualified}

/-- A name parted at the separator that ends last in it. -/
structure Parts (separators : List (List Char)) (name : List Char) (p : Qualified) : Prop where
  mem : p.separator ∈ separators
  suffix : p.needle <:+ name
  last : ∀ separator ∈ separators, ∀ rest ∈ name.tails, separator <+: rest →
    separator.length + p.leaf.length ≤ rest.length

theorem exists_foldl_shorter (best : Qualified) (partings : List Qualified) :
    ∃ p, partings.foldl shorter (some best) = some p ∧ p.leaf.length ≤ best.leaf.length ∧
      ∀ q ∈ partings, p.leaf.length ≤ q.leaf.length := by
  induction partings generalizing best with
  | nil => exact ⟨best, rfl, Nat.le_refl _, by simp⟩
  | cons q partings ih =>
      by_cases hle : q.leaf.length ≤ best.leaf.length
      · obtain ⟨p, hp, hbest, hrest⟩ := ih q
        refine ⟨p, ?_, Nat.le_trans hbest hle, List.forall_mem_cons.2 ⟨hbest, hrest⟩⟩
        rw [List.foldl_cons, shorter, if_pos hle, hp]
      · obtain ⟨p, hp, hbest, hrest⟩ := ih best
        refine ⟨p, ?_, hbest, List.forall_mem_cons.2 ⟨by omega, hrest⟩⟩
        rw [List.foldl_cons, shorter, if_neg hle, hp]

/-- The partings of a name at the last occurrence of each separator. -/
def partings (separators : List (List Char)) (name : List Char) : List Qualified :=
  separators.filterMap fun separator =>
    (Text.lastOccurrence? separator name).map fun o => ⟨separator, o.after⟩

theorem mem_partings_iff : p ∈ partings separators name ↔ p.separator ∈ separators ∧
    ∃ o, Text.lastOccurrence? p.separator name = some o ∧ o.after = p.leaf := by
  simp only [partings, List.mem_filterMap, Option.map_eq_some_iff]
  constructor
  · rintro ⟨separator, hmem, o, ho, rfl⟩
    exact ⟨hmem, o, ho, rfl⟩
  · rintro ⟨hmem, o, ho, hleaf⟩
    exact ⟨p.separator, hmem, o, ho, by rw [hleaf]⟩

/-- Wherever a separator stands in a name, the name is parted there or behind. -/
theorem exists_parting (hne : [] ∉ separators) {separator : List Char}
    (hmem : separator ∈ separators) (hname : name = before ++ separator ++ after) :
    ∃ p ∈ partings separators name, p.leaf.length ≤ after.length := by
  have hsep : separator ≠ [] := fun hnil => hne (hnil ▸ hmem)
  cases ho : Text.lastOccurrence? separator name with
  | none => exact absurd ⟨before, after, hname.symm⟩ ((Text.lastOccurrence?_eq_none_iff hsep).1 ho)
  | some o =>
      refine ⟨⟨separator, o.after⟩, mem_partings_iff.2 ⟨hmem, o, ho, rfl⟩, ?_⟩
      have hle := Text.length_le_of_lastOccurrence? hsep (hname ▸ ho)
      have hlen := congrArg List.length (Text.eq_append_of_lastOccurrence? ho)
      rw [hname] at hlen
      simp only [List.length_append] at hlen
      change o.after.length ≤ after.length
      omega

theorem parts_of_mem_partings (hne : [] ∉ separators) (hmem : p ∈ partings separators name)
    (hmin : ∀ q ∈ partings separators name, p.leaf.length ≤ q.leaf.length) :
    Parts separators name p := by
  obtain ⟨hsep, o, ho, hleaf⟩ := mem_partings_iff.1 hmem
  refine ⟨hsep, ⟨o.before, ?_⟩, ?_⟩
  · rw [needle, ← hleaf, ← List.append_assoc]
    exact (Text.eq_append_of_lastOccurrence? ho).symm
  · intro separator hsep' rest hrest hprefix
    obtain ⟨before, hbefore⟩ := (List.mem_tails _ _).1 hrest
    obtain ⟨after, rfl⟩ := hprefix
    rw [← List.append_assoc] at hbefore
    obtain ⟨q, hq, hle⟩ := exists_parting hne hsep' hbefore.symm
    have hshort := hmin q hq
    rw [List.length_append]
    omega

theorem Parts.length_leaf_le (h : Parts separators name p) (h' : Parts separators name p') :
    p.leaf.length ≤ p'.leaf.length := by
  have hle := h.last p'.separator h'.mem p'.needle ((List.mem_tails _ _).2 h'.suffix)
    (List.prefix_append _ _)
  rw [needle, List.length_append] at hle
  omega

theorem Parts.eq (hends : ∀ s ∈ separators, ∀ s' ∈ separators, s <:+ s' → s = s')
    (h : Parts separators name p) (h' : Parts separators name p') : p = p' := by
  have hleaf : p.leaf = p'.leaf := by
    have hlen := Nat.le_antisymm (h.length_leaf_le h') (h'.length_leaf_le h)
    have hsuffix : p.leaf <:+ p'.leaf :=
      List.suffix_of_suffix_length_le ((List.suffix_append _ _).trans h.suffix)
        ((List.suffix_append _ _).trans h'.suffix) (Nat.le_of_eq hlen)
    exact hsuffix.eq_of_length hlen
  have hcancel : ∀ {s s' : List Char}, s ++ p.leaf <:+ s' ++ p.leaf → s <:+ s' := by
    rintro s s' ⟨rest, hrest⟩
    rw [← List.append_assoc] at hrest
    exact ⟨rest, List.append_cancel_right hrest⟩
  have hsep : p.separator = p'.separator := by
    have hp := h.suffix
    have hp' := h'.suffix
    rw [needle] at hp hp'
    rw [← hleaf] at hp'
    rcases List.suffix_or_suffix_of_suffix hp hp' with hs | hs
    · exact hends _ h.mem _ h'.mem (hcancel hs)
    · exact (hends _ h'.mem _ h.mem (hcancel hs)).symm
  obtain ⟨separator, leaf⟩ := p
  cases hleaf
  cases hsep
  rfl

theorem exists_parts (hne : [] ∉ separators) (h : partings separators name ≠ []) :
    ∃ p, (partings separators name).foldl shorter none = some p ∧ Parts separators name p := by
  obtain ⟨q, qs, hqs⟩ := List.exists_cons_of_ne_nil h
  obtain ⟨p, hp, hbest, hrest⟩ := exists_foldl_shorter q qs
  have hchosen : (partings separators name).foldl shorter none = some p := by
    rw [hqs]
    exact hp
  refine ⟨p, hchosen, parts_of_mem_partings hne ?_ ?_⟩
  · rcases mem_of_foldl_shorter hchosen with hnone | hmem
    · cases hnone
    · exact hmem
  · rw [hqs]
    exact List.forall_mem_cons.2 ⟨hbest, hrest⟩

/-- A name is split at its last separator, if anything stands behind it. -/
theorem split?_eq_some_iff (hne : [] ∉ separators)
    (hends : ∀ s ∈ separators, ∀ s' ∈ separators, s <:+ s' → s = s') :
    split? name separators = some p ↔ Parts separators name p ∧ p.leaf ≠ [] := by
  change ((partings separators name).foldl shorter none).filter (fun q => !q.leaf.isEmpty) =
    some p ↔ _
  rw [Option.filter_eq_some_iff]
  constructor
  · rintro ⟨hp, hleaf⟩
    have hpartings : partings separators name ≠ [] := by
      intro hnil
      rw [hnil] at hp
      cases hp
    obtain ⟨p', hp', hparts⟩ := exists_parts hne hpartings
    rw [hp] at hp'
    cases hp'
    exact ⟨hparts, by simpa using hleaf⟩
  · rintro ⟨hparts, hleaf⟩
    obtain ⟨before, hbefore⟩ := hparts.suffix
    rw [needle, ← List.append_assoc] at hbefore
    obtain ⟨q, hq, -⟩ := exists_parting hne hparts.mem hbefore.symm
    obtain ⟨p', hp', hparts'⟩ := exists_parts hne (List.ne_nil_of_mem hq)
    rw [hparts'.eq hends hparts] at hp'
    exact ⟨hp', by simpa using hleaf⟩

theorem needle_ne (hleaf : p.leaf ≠ []) : p.needle ≠ [] :=
  List.append_ne_nil_of_right_ne_nil _ hleaf

theorem getLast?_needle (hleaf : p.leaf ≠ []) : p.needle.getLast? = p.leaf.getLast? :=
  List.getLast?_append_of_ne_nil _ hleaf

/-- A leaf that ends as an identifier does never overlaps itself along with its separator, for a
border would be another separator or end as a separator does. -/
theorem Parts.unbordered (h : Parts separators name p) (hleaf : p.leaf ≠ [])
    (hplain : ∀ s ∈ separators, ∀ c ∈ s, Text.isIdent c = false)
    (hident : p.leaf.getLast?.any Text.isIdent = true) : Text.Unbordered p.needle := by
  intro k hpos hlt hborder
  by_cases hlong : p.separator.length ≤ (p.needle.drop k).length
  · have hprefix : p.separator <+: p.needle.drop k :=
      List.prefix_of_prefix_length_le (List.prefix_append _ _) hborder hlong
    have htail := (List.mem_tails _ _).2 ((List.drop_suffix k _).trans h.suffix)
    have hle := h.last _ h.mem _ htail hprefix
    rw [List.length_drop] at hle
    rw [needle, List.length_append] at hle hlt
    omega
  · have hprefix : p.needle.drop k <+: p.separator :=
      List.prefix_of_prefix_length_le hborder (List.prefix_append _ _) (by omega)
    obtain ⟨c, hc, hcident⟩ := (Option.any_eq_true _ _).1 hident
    have hlast : (p.needle.drop k).getLast? = some c := by
      rw [List.getLast?_drop, if_neg (by omega), getLast?_needle hleaf, hc]
    have hmem := hprefix.subset (List.mem_of_getLast? hlast)
    rw [hplain _ h.mem c hmem] at hcident
    cases hcident

/-- Where the leaf stands behind its separator, not glued to a longer identifier, a place of it is
found. -/
theorem Parts.findIn_ne_nil (h : Parts separators name p) (hleaf : p.leaf ≠ [])
    (hplain : ∀ s ∈ separators, ∀ c ∈ s, Text.isIdent c = false)
    (hcode : code = before ++ p.needle ++ after)
    (hright : p.leaf.getLast?.any Text.isIdent = true →
      ∀ c ∈ after.head?, Text.isIdent c = false) : p.findIn code ≠ [] := by
  have hneedle := needle_ne hleaf
  rw [findIn, ne_eq, List.map_eq_nil_iff, List.filter_eq_nil_iff, getLast?_needle hleaf]
  intro hnone
  cases hident : p.leaf.getLast?.any Text.isIdent with
  | true =>
      refine hnone ⟨before, after⟩ ?_ ?_
      · rw [hcode]
        exact (h.unbordered hleaf hplain hident).mem_occurrences hneedle
      · rw [hident, Bool.not_true, Bool.false_or, Option.all_eq_true]
        intro c hc
        rw [hright hident c hc]
        rfl
  | false =>
      have hoccurs : Text.occurrences p.needle code ≠ [] := by
        rw [ne_eq, Text.occurrences_eq_nil_iff hneedle, not_not]
        exact ⟨before, after, hcode.symm⟩
      obtain ⟨o, os, ho⟩ := List.exists_cons_of_ne_nil hoccurs
      refine hnone o (ho ▸ List.mem_cons_self) ?_
      rw [hident]
      rfl

end Qualified

namespace DialectKind

theorem separators_apart (kind : DialectKind) :
    ∀ s ∈ kind.dialect.qualifiers, ∀ s' ∈ kind.dialect.qualifiers, s <:+ s' → s = s' := by
  cases kind <;> decide

theorem separators_plain (kind : DialectKind) :
    ∀ s ∈ kind.dialect.qualifiers, ∀ c ∈ s, Text.isIdent c = false := by
  have hsigns : ∀ s ∈ kind.dialect.qualifiers, s.all (Text.inRanges Text.signRanges) = true := by
    cases kind <;> decide
  intro s hs c hc
  exact Text.isIdent_eq_false_of_isSign (List.all_eq_true.1 (hsigns s hs) c hc)

theorem markers_plain (kind : DialectKind) :
    let σ := kind.dialect.comments
    ∀ c, c ∈ σ.line.head? ∨ c ∈ σ.blockOpen.head? → Text.isIdent c = false := by
  intro σ c hc
  have hsigns : (σ.line.head?.toList ++ σ.blockOpen.head?.toList).all
      (Text.inRanges Text.signRanges) = true := by
    cases kind <;> rfl
  refine Text.isIdent_eq_false_of_isSign (List.all_eq_true.1 hsigns c ?_)
  rwa [List.mem_append, Option.mem_toList, Option.mem_toList]

end DialectKind

section Tiers

variable {kind : DialectKind} {q : Query} {parts : Qualified} {t : Source} {c : Candidate}
  {r : ByteRange} {line code left body right tail : List Char}

theorem qualified_of_parts (hparts : parts.Parts kind.dialect.qualifiers q.name)
    (hleaf : parts.leaf ≠ []) :
    (SearchPlan.ofQuery q kind.dialect).qualified = some parts :=
  (Qualified.split?_eq_some_iff kind.dialect.qualifiers_ne kind.separators_apart).2 ⟨hparts, hleaf⟩

theorem findIn_ne_nil_of_boundedMatches (hparts : parts.Parts kind.dialect.qualifiers q.name)
    (hleaf : parts.leaf ≠ []) (h : r ∈ boundedMatches q.name code) : parts.findIn code ≠ [] := by
  obtain ⟨before, after, hcode, hbounded, -⟩ := exists_of_mem_boundedMatches h
  obtain ⟨pre, hname⟩ := hparts.suffix
  have hplace : code = (before ++ pre) ++ parts.needle ++ after := by
    rw [hcode, ← hname]
    simp only [List.append_assoc]
  refine hparts.findIn_ne_nil hleaf kind.separators_plain hplace ?_
  intro hident
  have hlast : q.name.getLast? = parts.leaf.getLast? := by
    rw [← hname, Qualified.needle, ← List.append_assoc, List.getLast?_append_of_ne_nil _ hleaf]
  rw [isBounded, Bool.and_eq_true, hlast, hident] at hbounded
  intro c hc
  have hboundary := hbounded.2
  rw [Option.mem_def.1 hc] at hboundary
  exact isIdent_eq_false_of_isRightBoundary hboundary

/-- The bare name is never the best that is found for a qualified name. -/
theorem tier_ne_name (hparts : parts.Parts kind.dialect.qualifiers q.name)
    (hleaf : parts.leaf ≠ []) (h : findCandidate? t q kind.dialect = some c) : c.tier ≠ .name := by
  intro htier
  obtain ⟨⟨line, code, hline, hcode, hdef, hmatch⟩, -, hbetter⟩ := findCandidate?_eq_some_iff.1 h
  rw [htier] at hmatch hbetter
  have hname : c.range ∈ boundedMatches q.name code :=
    List.mem_of_mem_head? (Option.mem_def.2 hmatch)
  obtain ⟨r, rs, hfound⟩ :=
    List.exists_cons_of_ne_nil (findIn_ne_nil_of_boundedMatches hparts hleaf hname)
  refine hbetter .qualified (by decide) c.line r ⟨line, code, hline, hcode, hdef, ?_⟩
  change (SearchPlan.ofQuery q kind.dialect).qualified.bind _ = _
  rw [qualified_of_parts hparts hleaf, Option.bind_some, hfound]
  rfl

/-- The leaf begins at a column of a line, right behind its separator, and is not glued to a
longer identifier. -/
def Qualified.StandsAt (parts : Qualified) (line : List Char) (column : Nat) : Prop :=
  ∃ before after, line = before ++ parts.separator ++ parts.leaf ++ after ∧
    column = (before ++ parts.separator).length ∧
    (parts.leaf.getLast?.any Text.isIdent = true → ∀ c ∈ after.head?, Text.isIdent c = false)

theorem Qualified.standsAt_of_findIn (hleaf : parts.leaf ≠ []) (h : r ∈ parts.findIn line) :
    parts.StandsAt line (columnAt line r.start) := by
  obtain ⟨before, after, hline, hright, rfl⟩ := exists_of_mem_findIn h
  rw [getLast?_needle hleaf] at hright
  refine ⟨before, after, hline, ?_, hright⟩
  rw [hline, List.append_assoc _ parts.leaf, columnAt_append]

theorem Qualified.standsAt_of_stripped
    (hs : kind.dialect.comments.Stripped line code left body right tail)
    (hparts : parts.Parts kind.dialect.qualifiers q.name) (hspace : ' ' ∉ q.name)
    (hleaf : parts.leaf ≠ []) (h : r ∈ parts.findIn code) :
    parts.StandsAt line (columnAt line r.start) := by
  obtain ⟨before, after, hcode, hright, rfl⟩ := exists_of_mem_findIn h
  rw [getLast?_needle hleaf] at hright
  have hneedle := needle_ne hleaf
  have hspace' : ' ' ∉ parts.needle := fun hmem => hspace (hparts.suffix.subset hmem)
  have hplace : code = before ++ parts.needle ++ after := by
    rw [hcode, needle, List.append_assoc before]
  obtain ⟨before', after', hline, hlen, -, hhead⟩ :=
    hs.exists_occurrence kind.dialect.comments_delimited hneedle hspace' hplace
  rw [needle, ← List.append_assoc before'] at hline
  refine ⟨before', after', hline, ?_, ?_⟩
  · rw [Text.byteLength_append, ← hlen, ← Text.byteLength_append, hline,
      List.append_assoc _ parts.leaf, columnAt_append]
  · -- The leaf may end where a comment begins, and no comment marker is glued to an identifier.
    intro hident c hc
    rcases hhead with hhead | hhead | hhead <;> rw [hhead] at hc
    · exact hright hident c hc
    · exact kind.markers_plain c (.inl hc)
    · exact kind.markers_plain c (.inr hc)

/-- In the dialects in stock, a name without spaces that parts at its last separator is located
only where that separator stands right before the leaf and the leaf is a whole identifier, if it
ends as one, on the line itself. The bare name is never what is found. -/
theorem located_behind_separator (kind : DialectKind) (t : Source) (q : Query) (parts : Qualified)
    (hspace : ' ' ∉ q.name) (hparts : parts.Parts kind.dialect.qualifiers q.name)
    (hleaf : parts.leaf ≠ []) (p : Position) (h : locate? t q kind.dialect = some p) :
    (∃ line, t.lines[p.line]? = some line ∧ parts.StandsAt line p.column) ∧
    ∃ c, findCandidate? t q kind.dialect = some c ∧ c.line = p.line ∧ c.tier ≠ .name := by
  obtain ⟨c, line, code, hc, hnumber, hline, hcode, hcolumn, hmatch⟩ := exists_match_of_locate? h
  have htier := tier_ne_name hparts hleaf hc
  have hplan := qualified_of_parts hparts hleaf
  refine ⟨⟨line, hline, ?_⟩, c, hc, hnumber, htier⟩
  rw [hcolumn]
  cases hfound : c.tier with
  | hint =>
      rw [hfound] at hmatch
      obtain ⟨hint, -, place, -, -, hrefine⟩ := SearchPlan.exists_of_matchHint? hmatch
      rcases SearchPlan.refineHint?_cases hrefine with ⟨p', hp', hmem, -⟩ | ⟨hnone, -⟩
      · rw [hplan, Option.some.injEq] at hp'
        subst hp'
        exact Qualified.standsAt_of_findIn hleaf hmem
      · rw [hplan] at hnone
        cases hnone
  | qualified =>
      rw [hfound] at hmatch
      obtain ⟨p', hp', hhead⟩ := Option.bind_eq_some_iff.1 hmatch
      rw [hplan, Option.some.injEq] at hp'
      subst hp'
      obtain ⟨left, body, right, tail, hs⟩ :=
        CommentSyntax.exists_stripped_of_classes kind.dialect.comments_delimited hline hcode
      exact Qualified.standsAt_of_stripped hs hparts hspace hleaf
        (List.mem_of_mem_head? (Option.mem_def.2 hhead))
  | name => exact absurd hfound htier

theorem located_behind_separator_brace :
    let t : Source := ⟨["m(q); // p->m", "x = /* p->m */ é + p->m_2 + p->m(1);"].map String.toList⟩
    ∃ q : Query, q.name = "p->m".toList ∧ locate? t q DialectKind.brace.dialect = some ⟨1, 31⟩ ∧
      (⟨"->".toList, "m".toList⟩ : Qualified).StandsAt
        "x = /* p->m */ é + p->m_2 + p->m(1);".toList 31 := by
  intro t
  let q : Query := ⟨"p->m".toList, none, .usage, by decide, by simp⟩
  let parts : Qualified := ⟨"->".toList, "m".toList⟩
  have hparts : parts.Parts DialectKind.brace.dialect.qualifiers q.name :=
    ⟨by decide, by decide, by decide⟩
  have h : locate? t q DialectKind.brace.dialect = some ⟨1, 31⟩ := by decide +kernel
  obtain ⟨⟨line, hline, hstands⟩, -⟩ :=
    located_behind_separator .brace t q parts (by decide) hparts (by decide) ⟨1, 31⟩ h
  cases hline
  exact ⟨q, rfl, h, hstands⟩

end Tiers

end CodeSpan
