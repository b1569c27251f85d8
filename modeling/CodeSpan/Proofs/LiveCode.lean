import CodeSpan.Dialect.Kind
import CodeSpan.Proofs.Place

/-!
# Names in live code

The name itself is sought in the code of a line and is found outside every comment. A qualified
name is sought there too, and its leaf is found in a comment only if it begins with a space and a
blanked comment begins right behind the separator. A hint begins outside every comment, but the
name is then sought in all of its place on the line, so it may be found in a comment that the
hint holds, even before the same name in code.
-/

namespace CodeSpan

namespace Text

theorem eq_of_prefix_of_byteLength_le {s t : List Char} (h : s <+: t)
    (hle : byteLength t ≤ byteLength s) : s = t := by
  obtain ⟨rest, rfl⟩ := h
  rw [byteLength_append] at hle
  cases rest with
  | nil => rw [List.append_nil]
  | cons c rest =>
      have hpos := c.utf8Size_pos
      rw [byteLength_cons] at hle
      omega

theorem eq_of_prefix_of_byteLength_eq {s t line : List Char} (hs : s <+: line) (ht : t <+: line)
    (h : byteLength s = byteLength t) : s = t := by
  rcases List.prefix_or_prefix_of_prefix hs ht with hst | hts
  · exact eq_of_prefix_of_byteLength_le hst (Nat.le_of_eq h.symm)
  · exact (eq_of_prefix_of_byteLength_le hts (Nat.le_of_eq h)).symm

theorem byteLength_take_lt {s : List Char} {i j : Nat} (hij : i < j) (hi : i < s.length) :
    byteLength (s.take i) < byteLength (s.take j) := by
  have hprefix : s.take i ++ [s[i]] <+: s.take j := by
    rw [List.take_append_getElem]
    exact List.take_prefix_take_left hij
  have hle := byteLength_le_of_prefix hprefix
  have hpos := (s[i]).utf8Size_pos
  rw [byteLength_append, byteLength_cons] at hle
  omega

end Text

namespace CommentSyntax.Stripped

variable {σ : CommentSyntax} {line code left body right tail before after : List Char}

theorem byteLength_code_le (h : σ.Stripped line code left body right tail) :
    Text.byteLength code ≤ Text.byteLength line := by
  have hlen := congrArg Text.byteLength h.code_eq
  rw [h.line_eq]
  simp only [Text.byteLength_append, Text.byteLength_spaces] at hlen ⊢
  omega

/-- What stands right behind a text without spaces in the code is in a comment only at the very
beginning of a block comment. -/
theorem removes_behind_iff (h : σ.Stripped line code left body right tail) {needle : List Char}
    (hne : needle ≠ []) (hline : line = before ++ needle ++ after)
    (hlive : ∀ offset, Text.byteLength before ≤ offset →
      offset < Text.byteLength before + Text.byteLength needle → ¬ σ.Removes line offset)
    (hin : Text.byteLength (before ++ needle) < Text.byteLength code) :
    σ.Removes line (Text.byteLength (before ++ needle)) ↔
      ∃ stop, σ.openIndex? line = some (before ++ needle).length ∧
        σ.closeIndex? line = some stop ∧ (before ++ needle).length < stop := by
  have hlong := h.byteLength_code_le
  have htake : line.take (before ++ needle).length = before ++ needle := by
    rw [hline, List.take_left]
  constructor
  · intro hr
    obtain ⟨hstart, hstop⟩ | hcut := h.removes _ hr
    · have hbody : body ≠ [] := by
        rintro rfl
        rw [Text.byteLength_nil] at hstop
        omega
      have hthis : left <+: line := by
        rw [h.line_eq, List.append_assoc]
        exact List.prefix_append _ _
      have hthat : before ++ needle <+: line := hline ▸ List.prefix_append _ _
      have hleft : left = before ++ needle := by
        refine Text.eq_of_prefix_of_byteLength_eq hthis hthat ?_
        -- Otherwise the last byte of the needle would be blanked out as well.
        by_contra hne'
        have hpos := Text.byteLength_pos hne
        rw [Text.byteLength_append] at hstart hstop hne'
        refine hlive (Text.byteLength before + Text.byteLength needle - 1) (by omega) (by omega)
          (.block (h.opens hbody) (h.closes hbody) ?_ ?_)
        · rw [h.line_eq, List.append_assoc, List.take_left]
          omega
        · rw [h.line_eq, ← List.length_append, List.take_left, Text.byteLength_append]
          omega
      have hlength := List.length_pos_of_ne_nil hbody
      exact ⟨_, hleft ▸ h.opens hbody, h.closes hbody, by rw [hleft]; omega⟩
    · omega
  · rintro ⟨stop, hopen, hclose, hlt⟩
    refine .block hopen hclose (by rw [htake]) ?_
    have hlen : (before ++ needle).length < line.length :=
      Nat.lt_of_lt_of_le hlt (closeIndex?_le_length hclose)
    have htake_lt := Text.byteLength_take_lt hlt hlen
    rwa [htake] at htake_lt

/-- A text behind another one without spaces begins in a comment only if it begins with a space,
for otherwise the two would stand together on the line. -/
theorem head_of_removes (h : σ.Stripped line code left body right tail) (hσ : σ.Delimited)
    {needle rest : List Char} (hspace : ' ' ∉ needle) (hrest : rest ≠ [])
    (hcode : code = before ++ needle ++ rest ++ after)
    (hr : σ.Removes line (Text.byteLength (before ++ needle))) : rest.head? = some ' ' := by
  by_contra hhead
  obtain ⟨x, rest, rfl⟩ := List.exists_cons_of_ne_nil hrest
  have hspace' : ' ' ∉ needle ++ [x] := by
    rw [List.mem_append, List.mem_singleton, not_or]
    refine ⟨hspace, ?_⟩
    rintro rfl
    exact hhead rfl
  have hcode' : code = before ++ (needle ++ [x]) ++ (rest ++ after) := by
    rw [hcode]
    simp only [List.append_assoc, List.cons_append, List.nil_append]
  obtain ⟨-, -, -, -, hlive, -⟩ := h.exists_occurrence hσ (by simp) hspace' hcode'
  have hpos := Text.byteLength_pos (List.cons_ne_nil x [])
  refine hlive _ ?_ ?_ hr
  · rw [Text.byteLength_append]
    omega
  · rw [Text.byteLength_append, Text.byteLength_append]
    omega

end CommentSyntax.Stripped

theorem Query.name_head_of_ofText {name : List Char} {hint : Option (List Char)}
    {mode : SearchMode} {q : Query} (h : Query.ofText name hint mode = .ok q) :
    q.name.head?.all Text.isBlank = false := by
  unfold Query.ofText at h
  dsimp only at h
  split at h
  · cases h
  · next hname =>
      cases h
      exact Text.head?_trim hname

theorem Qualified.separator_of_split? {name : List Char} {separators : List (List Char)}
    {p : Qualified} (h : split? name separators = some p) : p.separator ∈ separators := by
  obtain ⟨hfold, -⟩ := Option.filter_eq_some_iff.1 h
  rcases mem_of_foldl_shorter hfold with hnone | hmem
  · cases hnone
  · obtain ⟨separator, hsep, hparting⟩ := List.mem_filterMap.1 hmem
    obtain ⟨o, -, rfl⟩ := Option.map_eq_some_iff.1 hparting
    exact hsep

section Tiers

variable {σ : CommentSyntax} {line code left body right tail : List Char} {r : ByteRange}
  {plan : SearchPlan}

theorem live_of_matchName (hσ : σ.Delimited) (hs : σ.Stripped line code left body right tail)
    (hname : plan.query.name.head?.all Text.isBlank = false)
    (h : plan.matchTier? .name line code = some r) :
    ∃ before c after, line = before ++ c :: after ∧ r.start = Text.byteLength before ∧
      ¬ σ.Removes line r.start := by
  obtain ⟨before, after, hcode, -, rfl⟩ :=
    exists_of_mem_boundedMatches (List.mem_of_mem_head? (Option.mem_def.2 h))
  obtain ⟨c, rest, hc⟩ := List.exists_cons_of_ne_nil plan.query.name_ne
  have hspace : ' ' ∉ [c] := by
    rw [hc] at hname
    intro hmem
    rw [← List.mem_singleton.1 hmem] at hname
    cases hname
  have hcode' : code = before ++ [c] ++ (rest ++ after) := by
    rw [hcode, hc]
    simp only [List.append_assoc, List.cons_append, List.nil_append]
  obtain ⟨before', after', hline, hlen, hlive, -⟩ :=
    hs.exists_occurrence hσ (List.cons_ne_nil c []) hspace hcode'
  refine ⟨before', c, after', ?_, hlen.symm, hlive _ (Nat.le_refl _) ?_⟩
  · rw [hline, List.append_assoc]
    rfl
  · exact Nat.lt_add_of_pos_right (Text.byteLength_pos (List.cons_ne_nil c []))

theorem live_of_findIn (hσ : σ.Delimited) (hs : σ.Stripped line code left body right tail)
    {p : Qualified} (hsep : p.separator ≠ []) (hspace : ' ' ∉ p.separator) (hleaf : p.leaf ≠ [])
    (h : r ∈ p.findIn code) :
    ∃ before c after, line = before ++ c :: after ∧ r.start = Text.byteLength before ∧
      (σ.Removes line r.start ↔ ∃ stop, σ.openIndex? line = some before.length ∧
        σ.closeIndex? line = some stop ∧ before.length < stop) ∧
      (σ.Removes line r.start → p.leaf.head? = some ' ') := by
  obtain ⟨before, after, hcode, -, rfl⟩ := Qualified.exists_of_mem_findIn h
  have hpos := Text.byteLength_pos hleaf
  obtain ⟨before', after', hline, hlen, hlive, -⟩ :=
    hs.exists_occurrence hσ hsep hspace (by rw [hcode, List.append_assoc])
  have hstart : Text.byteLength (before ++ p.separator) =
      Text.byteLength (before' ++ p.separator) := by
    rw [Text.byteLength_append, Text.byteLength_append, hlen]
  have hin : Text.byteLength (before' ++ p.separator) < Text.byteLength code := by
    rw [← hstart, hcode]
    simp only [Text.byteLength_append]
    omega
  obtain ⟨c, rest, hafter⟩ : ∃ c rest, after' = c :: rest := by
    apply List.exists_cons_of_ne_nil
    rintro rfl
    have hle := hs.byteLength_code_le
    rw [hline, List.append_nil] at hle
    omega
  rw [← hlen] at hlive
  have hiff := hs.removes_behind_iff hsep hline hlive hin
  refine ⟨before' ++ p.separator, c, rest, by rw [← hafter]; exact hline, hstart, ?_, ?_⟩
  · rw [hstart]
    exact hiff
  · intro hr
    exact hs.head_of_removes hσ hspace hleaf hcode hr

theorem live_of_matchHint (hs : σ.Stripped line code left body right tail)
    (hhead : ∀ hint ∈ plan.query.hint, hint.head?.all Text.isBlank = false)
    (hleaf : ∀ p, plan.qualified = some p → p.leaf ≠ [])
    (h : plan.matchTier? .hint line code = some r) :
    ∃ before c after, line = before ++ c :: after ∧ r.start = Text.byteLength before ∧
      ∃ hint ∈ plan.query.hint, ∃ place ∈ boundedMatches hint line,
        plan.refineHint? line place = some r ∧ ¬ σ.Removes line place.start ∧
          place.start ≤ r.start ∧ r.start < place.stop := by
  obtain ⟨hint, hmem, place, hplace, hstarts, hrefine⟩ := SearchPlan.exists_of_matchHint? h
  obtain ⟨before, after, hline, -, hrange⟩ := exists_of_mem_boundedMatches hplace
  have hne := plan.query.hint_ne hint hmem
  have hpos := Text.byteLength_pos hne
  obtain ⟨x, rest, hx⟩ := List.exists_cons_of_ne_nil hne
  have hchar : line = before ++ x :: (rest ++ after) := by
    rw [hline, hx, List.append_assoc, List.cons_append]
  have hlive : ¬ σ.Removes line place.start := by
    have hblank := hhead hint hmem
    rw [hx] at hblank
    rw [hrange] at hstarts ⊢
    refine hs.not_removes_of_startsInCode hchar ?_ hstarts
    rintro rfl
    cases hblank
  rcases SearchPlan.refineHint?_cases hrefine with
    ⟨p, hp, hfound, hwithin⟩ | ⟨-, rfl | ⟨hfound, hwithin⟩⟩
  · obtain ⟨before', after', hline', -, rfl⟩ := Qualified.exists_of_mem_findIn hfound
    obtain ⟨c, rest', hchar'⟩ := exists_char (hleaf p hp) hline'
    have hlen := Text.byteLength_pos (hleaf p hp)
    simp only [ByteRange.within, Bool.and_eq_true, decide_eq_true_eq] at hwithin
    exact ⟨_, c, rest', hchar', rfl, hint, hmem, place, hplace, hrefine, hlive, hwithin.1,
      Nat.lt_of_lt_of_le (Nat.lt_add_of_pos_right hlen) hwithin.2⟩
  · refine ⟨before, x, _, hchar, by rw [hrange], hint, hmem, r, hplace, hrefine, hlive,
      Nat.le_refl _, ?_⟩
    rw [hrange]
    exact Nat.lt_add_of_pos_right hpos
  · obtain ⟨before', after', hline', -, rfl⟩ := exists_of_mem_boundedMatches hfound
    obtain ⟨c, rest', hchar'⟩ := exists_char plan.query.name_ne hline'
    have hlen := Text.byteLength_pos plan.query.name_ne
    simp only [ByteRange.within, Bool.and_eq_true, decide_eq_true_eq] at hwithin
    exact ⟨before', c, rest', hchar', rfl, hint, hmem, place, hplace, hrefine, hlive, hwithin.1,
      Nat.lt_of_lt_of_le (Nat.lt_add_of_pos_right hlen) hwithin.2⟩

end Tiers

theorem DialectKind.separators_spaceless (kind : DialectKind) :
    ∀ separator ∈ kind.dialect.qualifiers, ' ' ∉ separator := by
  cases kind <;> decide

/-- In the dialects in stock, the name itself is located in live code. A leaf is located there
too, unless a block comment begins right behind the separator and the leaf with a space. For a
hint only the beginning of its place is certain to be live: the name is located within that
place, in live code or not. -/
theorem located_in_live_code (kind : DialectKind) (name : List Char) (hint : Option (List Char))
    (mode : SearchMode) (q : Query) (hq : Query.ofText name hint mode = .ok q) (t : Source)
    (p : Position) (h : locate? t q kind.dialect = some p) :
    let σ := kind.dialect.comments
    let plan := SearchPlan.ofQuery q kind.dialect
    ∃ c line code, findCandidate? t q kind.dialect = some c ∧ c.line = p.line ∧
      t.lines[p.line]? = some line ∧ (σ.classes t.lines)[p.line]? = some (.code code) ∧
      p.column < line.length ∧ c.range.start = Text.byteLength (line.take p.column) ∧
      match c.tier with
      | .name => ¬ σ.Removes line c.range.start
      | .qualified => (σ.Removes line c.range.start ↔ ∃ stop,
            σ.openIndex? line = some p.column ∧ σ.closeIndex? line = some stop ∧
              p.column < stop) ∧
          (σ.Removes line c.range.start →
            ∃ separator leaf, plan.qualified = some ⟨separator, ' ' :: leaf⟩)
      | .hint => ∃ hint ∈ q.hint, ∃ place ∈ boundedMatches hint line,
          plan.refineHint? line place = some c.range ∧ ¬ σ.Removes line place.start ∧
            place.start ≤ c.range.start ∧ c.range.start < place.stop := by
  intro σ plan
  have hσ : σ.Delimited := kind.dialect.comments_delimited
  obtain ⟨c, line, code, hc, hnumber, hline, hcode, hcolumn, hmatch⟩ := exists_match_of_locate? h
  refine ⟨c, line, code, hc, hnumber, hline, hcode, ?_⟩
  obtain ⟨left, body, right, tail, hs⟩ := CommentSyntax.exists_stripped_of_classes hσ hline hcode
  cases htier : c.tier with
  | name =>
      rw [htier] at hmatch
      obtain ⟨before, x, after, happ, hstart, hlive⟩ :=
        live_of_matchName hσ hs (Query.name_head_of_ofText hq) hmatch
      obtain ⟨-, hlt, hoffset⟩ := column_of_char happ hstart
      exact ⟨hcolumn ▸ hlt, hcolumn ▸ hoffset, hlive⟩
  | qualified =>
      rw [htier] at hmatch
      obtain ⟨parts, hparts, hfound⟩ := Option.bind_eq_some_iff.1 hmatch
      have hmem := Qualified.separator_of_split? hparts
      have hne : parts.separator ≠ [] := fun hnil => kind.dialect.qualifiers_ne (hnil ▸ hmem)
      obtain ⟨before, x, after, happ, hstart, hiff, hleaf⟩ :=
        live_of_findIn hσ hs hne (kind.separators_spaceless _ hmem)
          (Qualified.leaf_of_split? hparts).1 (List.mem_of_mem_head? (Option.mem_def.2 hfound))
      obtain ⟨hlength, hlt, hoffset⟩ := column_of_char happ hstart
      rw [← hcolumn] at hlength hlt hoffset
      refine ⟨hlt, hoffset, hlength ▸ hiff, fun hr => ?_⟩
      obtain ⟨leaf, hl⟩ := List.head?_eq_some_iff.1 (hleaf hr)
      exact ⟨parts.separator, leaf, hl ▸ hparts⟩
  | hint =>
      rw [htier] at hmatch
      obtain ⟨before, x, after, happ, hstart, hplace⟩ :=
        live_of_matchHint hs (Query.trimmed_of_ofText hq).hint_head
          (fun parts hparts => (Qualified.leaf_of_split? hparts).1) hmatch
      obtain ⟨-, hlt, hoffset⟩ := column_of_char happ hstart
      exact ⟨hcolumn ▸ hlt, hcolumn ▸ hoffset, hplace⟩

theorem located_in_live_code_keyword :
    let line := "  run(1) # run".toList
    ∃ q, Query.ofText " run".toList none .usage = .ok q ∧
      locate? ⟨["# run".toList, "=begin".toList, "run".toList, "=end".toList, line]⟩ q
        DialectKind.keyword.dialect = some ⟨4, 2⟩ ∧
      ¬ DialectKind.keyword.dialect.comments.Removes line 2 := by
  intro line
  let q : Query := ⟨"run".toList, none, .usage, by decide, by simp⟩
  let t : Source := ⟨["# run".toList, "=begin".toList, "run".toList, "=end".toList, line]⟩
  have hq : Query.ofText " run".toList none .usage = .ok q := rfl
  have h : locate? t q DialectKind.keyword.dialect = some ⟨4, 2⟩ := by decide +kernel
  have hfound : findCandidate? t q DialectKind.keyword.dialect = some ⟨4, ⟨2, 5⟩, .name⟩ := by
    decide +kernel
  obtain ⟨c, text, -, hc, -, htext, -, -, -, hlive⟩ :=
    located_in_live_code .keyword _ _ _ q hq t ⟨4, 2⟩ h
  rw [hfound] at hc
  cases hc
  cases htext
  exact ⟨q, hq, h, hlive⟩

/-- A hint with a comment that mentions the name before the code does, and a leaf that begins
with spaces, are located in a comment. -/
theorem not_located_in_live_code_brace :
    let σ := Dialect.brace.comments
    let hinted := "x = /* foo */ foo(1)".toList
    let dotted := "y./**/b".toList
    (∃ q, Query.ofText "foo".toList (some hinted) .usage = .ok q ∧
      locate? ⟨[hinted]⟩ q Dialect.brace = some ⟨0, 7⟩ ∧
      σ.Removes hinted (Text.byteLength (hinted.take 7))) ∧
    ∃ q, Query.ofText "x.    b".toList none .usage = .ok q ∧
      locate? ⟨[dotted]⟩ q Dialect.brace = some ⟨0, 2⟩ ∧
      σ.Removes dotted (Text.byteLength (dotted.take 2)) := by
  intro σ hinted dotted
  refine ⟨⟨⟨"foo".toList, some hinted, .usage, by decide, by simp [hinted]⟩, rfl,
    by decide +kernel, ?_⟩,
    ⟨⟨"x.    b".toList, none, .usage, by decide, by simp⟩, rfl, by decide +kernel, ?_⟩⟩
  · have hopen : σ.openIndex? hinted = some 4 := rfl
    have hclose : σ.closeIndex? hinted = some 13 := rfl
    exact .block hopen hclose (by decide) (by decide)
  · have hopen : σ.openIndex? dotted = some 2 := rfl
    have hclose : σ.closeIndex? dotted = some 6 := rfl
    exact .block hopen hclose (by decide) (by decide)

end CodeSpan
