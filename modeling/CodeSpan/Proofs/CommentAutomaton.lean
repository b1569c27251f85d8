import CodeSpan.Dialect.Kind
import CodeSpan.Proofs.Classify

/-!
# The flat comment automaton

The automaton has two states and one level of comments. A line is judged by its first opening
and its last closing marker: they make a comment of its own when the closing marker begins
behind the opening one, and otherwise a closing marker leads out and an opening one leads in.
The scan is a run of this automaton except where the two markers of a line share a character,
as in `/*/` and `*/*`, which the scan takes for a comment that opens and closes.
-/

namespace CodeSpan

namespace CommentSyntax

/-- The first opening marker begins behind `start` characters, the last closing one ends behind
`stop` characters, and no character belongs to both. -/
def SelfContained (σ : CommentSyntax) (line : List Char) (start stop : Nat) : Prop :=
  ∃ last, Text.FirstAt σ.blockOpen line start ∧ Text.LastAt σ.blockClose line last ∧
    start + σ.blockOpen.length ≤ last ∧ stop = last + σ.blockClose.length

/-- The first opening marker, behind `first` characters, shares a character with the last closing
one, behind `last` characters. -/
structure Overlap (σ : CommentSyntax) (line : List Char) (first last : Nat) : Prop where
  opens : Text.FirstAt σ.blockOpen line first
  closes : Text.LastAt σ.blockClose line last
  open_lt : first < last + σ.blockClose.length
  close_lt : last < first + σ.blockOpen.length

/-- One step of the automaton: the region before a line, the line, its class and the region
after it. -/
inductive FlatStep (σ : CommentSyntax) : Region → List Char → LineClass → Region → Prop where
  | lineComment {r : Region} {line : List Char} (comment : σ.line <+: Text.trimStart line) :
      FlatStep σ r line .comment r
  | ownComment {line : List Char} {start stop : Nat}
      (no_comment : ¬ σ.line <+: Text.trimStart line)
      (contained : σ.SelfContained line start stop) :
      FlatStep σ .outside line (.code (σ.cutLineComment (blank line start stop))) .outside
  | innerComment {line : List Char} {start stop : Nat}
      (no_comment : ¬ σ.line <+: Text.trimStart line)
      (contained : σ.SelfContained line start stop) : FlatStep σ .inside line .comment .inside
  | closes {line : List Char} (no_comment : ¬ σ.line <+: Text.trimStart line)
      (not_contained : ∀ start stop, ¬ σ.SelfContained line start stop)
      (closed : σ.blockClose <:+: line) : FlatStep σ .inside line .comment .outside
  | stays {line : List Char} (no_comment : ¬ σ.line <+: Text.trimStart line)
      (unclosed : ¬ σ.blockClose <:+: line) : FlatStep σ .inside line .comment .inside
  | opens {line : List Char} {first : Nat} (no_comment : ¬ σ.line <+: Text.trimStart line)
      (not_contained : ∀ start stop, ¬ σ.SelfContained line start stop)
      (opened : Text.FirstAt σ.blockOpen line first)
      (in_code : first < (σ.cutLineComment line).length) :
      FlatStep σ .outside line
        (if Text.isBlankText (line.take first) then .comment else .code (line.take first)) .inside
  | opensInTrailing {line : List Char} {first : Nat}
      (no_comment : ¬ σ.line <+: Text.trimStart line)
      (not_contained : ∀ start stop, ¬ σ.SelfContained line start stop)
      (opened : Text.FirstAt σ.blockOpen line first)
      (in_trailing : (σ.cutLineComment line).length ≤ first) :
      FlatStep σ .outside line (.code (σ.cutLineComment line)) .outside
  | unopened {line : List Char} (no_comment : ¬ σ.line <+: Text.trimStart line)
      (unopened : ¬ σ.blockOpen <:+: line) :
      FlatStep σ .outside line (.code (σ.cutLineComment line)) .outside

/-- A run of the automaton over consecutive lines, with the class of every line and the region
after it. -/
inductive FlatRun (σ : CommentSyntax) :
    Region → List (List Char) → List (LineClass × Region) → Prop where
  | nil {r : Region} : FlatRun σ r [] []
  | cons {r : Region} {line : List Char} {lines : List (List Char)} {step : LineClass × Region}
      {steps : List (LineClass × Region)} (first : FlatStep σ r line step.1 step.2)
      (rest : FlatRun σ step.2 lines steps) : FlatRun σ r (line :: lines) (step :: steps)

/-- A line that the scan reads unlike the automaton: its markers overlap, and outside a comment
the line has no trailing line comment that hides the opening marker just as well when the two
markers are blanked. -/
def Misread (σ : CommentSyntax) (r : Region) (line : List Char) : Prop :=
  ¬ σ.line <+: Text.trimStart line ∧ ∃ first last, σ.Overlap line first last ∧
    (r = .outside → first < (σ.cutLineComment line).length ∨
      σ.cutLineComment (blank line first (last + σ.blockClose.length)) ≠ σ.cutLineComment line)

variable {σ : CommentSyntax} {r next : Region} {line : List Char} {cls : LineClass}
  {first last : Nat}

theorem openIndex?_cases (hσ : σ.Delimited) (line : List Char) :
    (∃ first, σ.openIndex? line = some first ∧ Text.FirstAt σ.blockOpen line first) ∨
      (σ.openIndex? line = none ∧ ¬ σ.blockOpen <:+: line) := by
  cases ho : Text.firstOccurrence? σ.blockOpen line with
  | none =>
      exact .inr ⟨by rw [openIndex?, ho]; rfl, (Text.firstOccurrence?_eq_none_iff hσ.2.1).1 ho⟩
  | some o =>
      exact .inl ⟨o.before.length, by rw [openIndex?, ho]; rfl,
        Text.firstAt_of_firstOccurrence? ho⟩

theorem closeIndex?_cases (hσ : σ.Delimited) (line : List Char) :
    (∃ last, σ.closeIndex? line = some (last + σ.blockClose.length) ∧
      Text.LastAt σ.blockClose line last) ∨
      (σ.closeIndex? line = none ∧ ¬ σ.blockClose <:+: line) := by
  cases ho : Text.lastOccurrence? σ.blockClose line with
  | none =>
      exact .inr ⟨by rw [closeIndex?, ho]; rfl, (Text.lastOccurrence?_eq_none_iff hσ.2.2).1 ho⟩
  | some o =>
      exact .inl ⟨o.before.length, by rw [closeIndex?, ho]; rfl,
        Text.lastAt_of_lastOccurrence? hσ.2.2 ho⟩

theorem openIndex?_of_firstAt (hσ : σ.Delimited) (h : Text.FirstAt σ.blockOpen line first) :
    σ.openIndex? line = some first := by
  rcases openIndex?_cases hσ line with ⟨first', hsome, hfirst⟩ | ⟨-, hno⟩
  · rw [hsome, hfirst.eq h]
  · exact absurd h.isInfix hno

theorem closeIndex?_of_lastAt (hσ : σ.Delimited) (h : Text.LastAt σ.blockClose line last) :
    σ.closeIndex? line = some (last + σ.blockClose.length) := by
  rcases closeIndex?_cases hσ line with ⟨last', hsome, hlast⟩ | ⟨-, hno⟩
  · rw [hsome, hlast.eq h]
  · exact absurd h.isInfix hno

theorem SelfContained.not_overlap {start stop : Nat} (h : σ.SelfContained line start stop) :
    ¬ σ.Overlap line first last := by
  rintro ⟨hopens, hcloses, -, hlt⟩
  obtain ⟨last', hfirst, hlast, hle, -⟩ := h
  rw [hopens.eq hfirst, hcloses.eq hlast] at hlt
  omega

theorem SelfContained.isInfix_close {start stop : Nat} (h : σ.SelfContained line start stop) :
    σ.blockClose <:+: line := by
  obtain ⟨last, -, hlast, -⟩ := h
  exact hlast.isInfix

theorem FlatStep.next_of_overlap_inside (hl : ¬ σ.line <+: Text.trimStart line)
    (ho : σ.Overlap line first last) (h : FlatStep σ .inside line cls next) :
    next = .outside := by
  cases h with
  | lineComment comment => exact absurd comment hl
  | innerComment _ contained => exact absurd ho contained.not_overlap
  | closes _ _ _ => rfl
  | stays _ unclosed => exact absurd ho.closes.isInfix unclosed

theorem FlatStep.cases_of_overlap_outside (hl : ¬ σ.line <+: Text.trimStart line)
    (ho : σ.Overlap line first last) (h : FlatStep σ .outside line cls next) :
    next = .inside ∨
      ((σ.cutLineComment line).length ≤ first ∧ cls = .code (σ.cutLineComment line)) := by
  cases h with
  | lineComment comment => exact absurd comment hl
  | ownComment _ contained => exact absurd ho contained.not_overlap
  | opens _ _ _ _ => exact .inl rfl
  | opensInTrailing _ _ opened in_trailing =>
      exact .inr ⟨by rwa [ho.opens.eq opened], rfl⟩
  | unopened _ hno => exact absurd ho.opens.isInfix hno

theorem flatStep_enterBlock (hl : ¬ σ.line <+: Text.trimStart line)
    (hs : ∀ start stop, ¬ σ.SelfContained line start stop)
    (ho : Text.FirstAt σ.blockOpen line first) :
    FlatStep σ .outside line (σ.enterBlock line first).1 (σ.enterBlock line first).2 := by
  rw [enterBlock]
  by_cases hcut : (σ.cutLineComment line).length ≤ first
  · rw [if_pos hcut]
    exact .opensInTrailing hl hs ho hcut
  · rw [if_neg hcut]
    have hopens := FlatStep.opens hl hs ho (Nat.lt_of_not_le hcut)
    by_cases hb : Text.isBlankText (line.take first) = true
    · rw [if_pos hb] at hopens ⊢
      exact hopens
    · rw [if_neg hb] at hopens ⊢
      exact hopens

theorem classify_of_overlap (hσ : σ.Delimited) (hl : ¬ σ.line <+: Text.trimStart line)
    (ho : σ.Overlap line first last) :
    σ.classify .inside line = (.comment, .inside) ∧ σ.classify .outside line =
      (.code (σ.cutLineComment (blank line first (last + σ.blockClose.length))), .outside) := by
  have hopen := openIndex?_of_firstAt hσ ho.opens
  have hclose := closeIndex?_of_lastAt hσ ho.closes
  rw [← isLineComment_iff] at hl
  exact ⟨classify_inside_of_pair hl hopen hclose ho.open_lt,
    classify_of_pair hl hopen hclose ho.open_lt⟩

/-- Where no markers overlap, a line is classified by a step of the automaton. -/
theorem flatStep_classify (hσ : σ.Delimited) (r : Region)
    (h : σ.line <+: Text.trimStart line ∨ ∀ first last, ¬ σ.Overlap line first last) :
    FlatStep σ r line (σ.classify r line).1 (σ.classify r line).2 := by
  by_cases hl : σ.line <+: Text.trimStart line
  · rw [classify_of_lineComment r hl]
    exact .lineComment hl
  replace h := h.resolve_left hl
  have hcomment := hl
  rw [← isLineComment_iff] at hcomment
  -- The scan knows of no marker but the first opening one and the last closing one.
  rcases openIndex?_cases hσ line with ⟨first, hopen, hfirst⟩ | ⟨hopen, hno⟩
  · rcases closeIndex?_cases hσ line with ⟨last, hclose, hlast⟩ | ⟨hclose, hno⟩
    · by_cases hlt : first < last + σ.blockClose.length
      · have hle : first + σ.blockOpen.length ≤ last := by
          by_contra! hgt
          exact h first last ⟨hfirst, hlast, hlt, hgt⟩
        have hs : σ.SelfContained line first (last + σ.blockClose.length) :=
          ⟨last, hfirst, hlast, hle, rfl⟩
        cases r with
        | outside =>
            rw [classify_of_pair hcomment hopen hclose hlt]
            exact .ownComment hl hs
        | inside =>
            rw [classify_inside_of_pair hcomment hopen hclose hlt]
            exact .innerComment hl hs
      · have hs : ∀ start stop, ¬ σ.SelfContained line start stop := by
          rintro start stop ⟨last', hfirst', hlast', hle, -⟩
          rw [hfirst'.eq hfirst, hlast'.eq hlast] at hle
          have hpos := List.length_pos_of_ne_nil hσ.2.1
          omega
        cases r with
        | outside =>
            rw [classify_of_opened hcomment hopen]
            · exact flatStep_enterBlock hl hs hfirst
            · intro stop hc
              rw [hclose, Option.some.injEq] at hc
              omega
        | inside =>
            rw [classify_inside_of_closeIndex? hcomment hclose]
            · exact .closes hl hs hlast.isInfix
            · intro start ho
              rw [hopen, Option.some.injEq] at ho
              omega
    · cases r with
      | outside =>
          rw [classify_of_opened hcomment hopen]
          · exact flatStep_enterBlock hl (fun _ _ hs => hno hs.isInfix_close) hfirst
          · intro stop hc
            rw [hclose] at hc
            cases hc
      | inside =>
          rw [classify_inside_of_unclosed hσ hno]
          exact .stays hl hno
  · have hs : ∀ start stop, ¬ σ.SelfContained line start stop := by
      rintro start stop ⟨-, hfirst, -⟩
      exact hno hfirst.isInfix
    cases r with
    | outside =>
        rw [classify_of_unopened hcomment hopen]
        exact .unopened hl hno
    | inside =>
        by_cases hclosed : σ.blockClose <:+: line
        · rw [classify_inside_of_closed hσ hclosed hno hl]
          exact .closes hl hs hclosed
        · rw [classify_inside_of_unclosed hσ hclosed]
          exact .stays hl hclosed

theorem flatStep_classify_iff (hσ : σ.Delimited) :
    FlatStep σ r line (σ.classify r line).1 (σ.classify r line).2 ↔ ¬ σ.Misread r line := by
  by_cases h : σ.line <+: Text.trimStart line ∨ ∀ first last, ¬ σ.Overlap line first last
  · refine ⟨fun _ => ?_, fun _ => flatStep_classify hσ r h⟩
    rintro ⟨hl, first, last, ho, -⟩
    exact (h.resolve_left hl) first last ho
  · push Not at h
    obtain ⟨hl, first, last, ho⟩ := h
    obtain ⟨hinside, houtside⟩ := classify_of_overlap hσ hl ho
    cases r with
    | inside =>
        rw [hinside]
        constructor
        · intro hstep
          cases hstep.next_of_overlap_inside hl ho
        · intro hread
          exact absurd ⟨hl, first, last, ho, fun hr => by cases hr⟩ hread
    | outside =>
        rw [houtside]
        constructor
        · intro hstep
          rcases hstep.cases_of_overlap_outside hl ho with hnext | ⟨hle, hcls⟩
          · cases hnext
          · rintro ⟨-, first', last', ho', hbad⟩
            rw [ho'.opens.eq ho.opens, ho'.closes.eq ho.closes] at hbad
            rcases hbad rfl with hlt | hne
            · omega
            · exact hne (LineClass.code.inj hcls)
        · intro hread
          by_contra hstep
          refine hread ⟨hl, first, last, ho, fun _ => ?_⟩
          by_contra! hgood
          obtain ⟨hle, heq⟩ := hgood
          have hs : ∀ start stop, ¬ σ.SelfContained line start stop :=
            fun _ _ hs => hs.not_overlap ho
          exact hstep (heq.symm ▸ FlatStep.opensInTrailing hl hs ho.opens hle)

theorem flatRun_scan_iff (hσ : σ.Delimited) (r : Region) (lines : List (List Char)) :
    FlatRun σ r lines (σ.scan r lines) ↔
      ∀ i line, lines[i]? = some line → ¬ σ.Misread (σ.regionAfter r (lines.take i)) line := by
  induction lines generalizing r with
  | nil => exact ⟨fun _ i line h => by simp at h, fun _ => .nil⟩
  | cons line lines ih =>
      rw [scan]
      constructor
      · intro h
        cases h with
        | cons first rest =>
            intro i other hline
            cases i with
            | zero =>
                cases hline
                exact (flatStep_classify_iff hσ).1 first
            | succ i => exact (ih _).1 rest i other hline
      · intro h
        refine .cons ((flatStep_classify_iff hσ).2 (h 0 line rfl)) ((ih _).2 ?_)
        intro i other hline
        exact h (i + 1) other hline

def Unlinked (σ : CommentSyntax) : Prop :=
  (∀ k < σ.blockOpen.length, ¬ σ.blockOpen.drop k <+: σ.blockClose ∧
    ¬ σ.blockClose <+: σ.blockOpen.drop k) ∧
  ∀ k < σ.blockClose.length, ¬ σ.blockClose.drop k <+: σ.blockOpen ∧
    ¬ σ.blockOpen <+: σ.blockClose.drop k

instance (σ : CommentSyntax) : Decidable σ.Unlinked :=
  inferInstanceAs (Decidable (_ ∧ _))

theorem Unlinked.not_overlap (h : σ.Unlinked) : ¬ σ.Overlap line first last := by
  rintro ⟨hopens, hcloses, hopen, hclose⟩
  rcases Nat.le_total first last with hle | hle
  · obtain ⟨k, rfl⟩ := Nat.exists_eq_add_of_le hle
    have hk := h.1 k (by omega)
    rcases Text.comparable_of_overlap hopens.here hcloses.here with hp | hp
    · exact hk.1 hp
    · exact hk.2 hp
  · obtain ⟨k, rfl⟩ := Nat.exists_eq_add_of_le hle
    have hk := h.2 k (by omega)
    rcases Text.comparable_of_overlap hcloses.here hopens.here with hp | hp
    · exact hk.1 hp
    · exact hk.2 hp

end CommentSyntax

/-- In the dialects in stock, the scan of any lines is a run of the automaton exactly when it
misreads none of them, which cannot happen with keywords for markers. -/
theorem flatRun_scan (kind : DialectKind) (lines : List (List Char)) :
    let σ := kind.dialect.comments
    (σ.FlatRun .outside lines (σ.scan .outside lines) ↔ ∀ i line, lines[i]? = some line →
      ¬ σ.Misread (σ.regionAfter .outside (lines.take i)) line) ∧
    (kind = .keyword → σ.FlatRun .outside lines (σ.scan .outside lines)) := by
  intro σ
  have hiff := CommentSyntax.flatRun_scan_iff kind.dialect.comments_delimited .outside lines
  refine ⟨hiff, ?_⟩
  rintro rfl
  have hunlinked : DialectKind.keyword.dialect.comments.Unlinked := by decide
  refine hiff.2 fun i line _ => ?_
  rintro ⟨-, first, last, ho, -⟩
  exact hunlinked.not_overlap ho

theorem flatRun_scan_keyword :
    let lines :=
      ["x =begin y =end", "=begin", "# =end", "=begin =end", "=end", "z"].map String.toList
    Dialect.keyword.comments.FlatRun .outside lines
      [(.code "x              ".toList, .outside), (.comment, .inside), (.comment, .inside),
        (.comment, .inside), (.comment, .outside), (.code "z".toList, .outside)] := by
  intro lines
  have hscan : Dialect.keyword.comments.scan .outside lines =
      [(.code "x              ".toList, .outside), (.comment, .inside), (.comment, .inside),
        (.comment, .inside), (.comment, .outside), (.code "z".toList, .outside)] := by decide
  exact hscan ▸ (flatRun_scan .keyword lines).2 rfl

theorem not_flatRun_scan_brace :
    let σ := Dialect.brace.comments
    (σ.scan .outside ["*/*".toList] = [(.code "* *".toList, .outside)] ∧
      σ.FlatStep .outside "*/*".toList (.code "*".toList) .inside ∧
      ¬ σ.FlatRun .outside ["*/*".toList] (σ.scan .outside ["*/*".toList])) ∧
    σ.scan .outside ["/*/".toList] = [(.code "   ".toList, .outside)] ∧
      σ.FlatStep .outside "/*/".toList .comment .inside ∧
      ¬ σ.FlatRun .outside ["/*/".toList] (σ.scan .outside ["/*/".toList]) := by
  intro σ
  have hσ : σ.Delimited := Dialect.brace.comments_delimited
  have hleft : σ.Overlap "*/*".toList 1 0 :=
    ⟨Text.firstAt_of_firstOccurrence? (o := ⟨['*'], []⟩) rfl,
      Text.lastAt_of_lastOccurrence? (o := ⟨[], ['*']⟩) hσ.2.2 rfl, by decide, by decide⟩
  have hright : σ.Overlap "/*/".toList 0 1 :=
    ⟨Text.firstAt_of_firstOccurrence? (o := ⟨[], ['/']⟩) rfl,
      Text.lastAt_of_lastOccurrence? (o := ⟨['/'], []⟩) hσ.2.2 rfl, by decide, by decide⟩
  have hl : ¬ σ.line <+: Text.trimStart "*/*".toList := by decide
  have hr : ¬ σ.line <+: Text.trimStart "/*/".toList := by decide
  refine ⟨⟨by decide, ?_, ?_⟩, by decide, ?_, ?_⟩
  · exact .opens hl (fun _ _ hs => hs.not_overlap hleft) hleft.opens (by decide)
  · intro hrun
    exact (CommentSyntax.flatRun_scan_iff hσ _ _).1 hrun 0 _ rfl
      ⟨hl, 1, 0, hleft, fun _ => .inl (by decide)⟩
  · exact .opens hr (fun _ _ hs => hs.not_overlap hright) hright.opens (by decide)
  · intro hrun
    exact (CommentSyntax.flatRun_scan_iff hσ _ _).1 hrun 0 _ rfl
      ⟨hr, 0, 1, hright, fun _ => .inl (by decide)⟩

end CodeSpan
