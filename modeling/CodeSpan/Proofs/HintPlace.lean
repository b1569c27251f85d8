import CodeSpan.Dialect.Builtin
import CodeSpan.Proofs.BlankedLine
import CodeSpan.Proofs.DefinitionLine
import CodeSpan.Proofs.LiveByte
import CodeSpan.Proofs.ReachedPlaces

/-!
# Places of a hint

A hint counts where it begins outside every comment and is not glued to its neighbours. The
search passes over each place that overlaps one it has reached and tests only those it reaches,
so a place that counts may be hidden by one that does not. A name that is not qualified is
located on the first eligible line with a place that counts and is reached. No place is hidden
if the hint never overlaps itself.
-/

namespace CodeSpan

/-- The hint stands on a line behind `i` characters, begins outside every comment and is not
glued to its neighbours. -/
structure HintStandsAt (σ : CommentSyntax) (hint line : List Char) (i : Nat) : Prop where
  here : hint <+: line.drop i
  live : ¬ σ.Removes line (Text.byteLength (line.take i))
  left_ok : hint.head?.any Text.isIdent = true →
    ∀ c ∈ (line.take i).getLast?, Text.isIdent c = false
  right_ok : hint.getLast?.any Text.isIdent = true →
    ∀ c ∈ (line.drop (i + hint.length)).head?, isRightBoundary c = true

/-- The search reaches a place of the hint on a line where the hint counts. -/
def ReachesHint (σ : CommentSyntax) (hint line : List Char) : Prop :=
  ∃ i, Text.Reached hint line i ∧ HintStandsAt σ hint line i

theorem isBounded_iff {needle : List Char} {o : Text.Occurrence} :
    isBounded needle o = true ↔
      (needle.head?.any Text.isIdent = true →
        ∀ c ∈ o.before.getLast?, Text.isIdent c = false) ∧
      (needle.getLast?.any Text.isIdent = true →
        ∀ c ∈ o.after.head?, isRightBoundary c = true) := by
  simp only [isBounded, Bool.and_eq_true, Bool.or_eq_true, Bool.not_eq_true', Option.all_eq_true,
    ← Bool.not_eq_true, imp_iff_not_or, Option.mem_def]

theorem SearchPlan.isSome_matchHint?_iff {plan : SearchPlan} {hint line code : List Char}
    (hhint : plan.query.hint = some hint) (hplain : plan.qualified = none) :
    (plan.matchHint? line code).isSome = true ↔
      ∃ place ∈ boundedMatches hint line, startsInCode line code place.start = true := by
  have hrefine : ∀ place, (plan.refineHint? line place).isSome = true := by
    intro place
    rw [refineHint?, hplain]
    rfl
  rw [matchHint?, hhint]
  change (List.findSome? (plan.refineHint? line)
    ((boundedMatches hint line).filter fun r => startsInCode line code r.start)).isSome = true ↔ _
  simp only [List.findSome?_isSome_iff, hrefine, List.mem_filter, and_true]

section Line

variable {σ : CommentSyntax} {hint line code : List Char}

theorem exists_startsInCode_iff (hσ : σ.Delimited) (hne : hint ≠ [])
    (hhead : hint.head?.all Text.isBlank = false) {lines : List (List Char)} {number : Nat}
    (hline : lines[number]? = some line) (hcode : (σ.classes lines)[number]? = some (.code code)) :
    (∃ place ∈ boundedMatches hint line,
      SearchPlan.startsInCode line code place.start = true) ↔ ReachesHint σ hint line := by
  have hstarts : ∀ i, hint <+: line.drop i →
      (SearchPlan.startsInCode line code (Text.byteLength (line.take i)) = true ↔
        ¬ σ.Removes line (Text.byteLength (line.take i))) := by
    intro i hhere
    obtain ⟨c, rest, rfl⟩ := List.exists_cons_of_ne_nil hne
    have happ := Text.eq_append_occurrenceAt hhere
    rw [List.append_assoc, List.cons_append] at happ
    refine CommentSyntax.startsInCode_iff hσ hline hcode happ ?_
    rintro rfl
    cases hhead
  simp only [mem_boundedMatches_iff hne]
  constructor
  · rintro ⟨_, ⟨i, hi, hbounded, rfl⟩, hin⟩
    obtain ⟨hleft, hright⟩ := isBounded_iff.1 hbounded
    exact ⟨i, hi, hi.here, (hstarts i hi.here).1 hin, hleft, hright⟩
  · rintro ⟨i, hi, hhere, hlive, hleft, hright⟩
    exact ⟨_, ⟨i, hi, isBounded_iff.2 ⟨hleft, hright⟩, rfl⟩, (hstarts i hhere).2 hlive⟩

end Line

variable {t : Source} {q : Query} {d : Dialect} {hint : List Char} {i : Nat}

theorem exists_matchesAt_hint_iff (hq : q.Trimmed) (hhint : q.hint = some hint)
    (hplain : Qualified.split? q.name d.qualifiers = none) :
    (∃ r, MatchesAt t q d .hint i r) ↔ ∃ line ∈ eligibleLines t q d, line.number = i ∧
      ReachesHint d.comments hint line.text := by
  have hline : ∀ line ∈ eligibleLines t q d,
      (((SearchPlan.ofQuery q d).matchTier? .hint line.text line.code).isSome = true ↔
        ReachesHint d.comments hint line.text) := by
    intro line hmem
    obtain ⟨htext, hcode, -⟩ := mem_eligibleLines_iff.1 hmem
    rw [← exists_startsInCode_iff d.comments_delimited (q.hint_ne hint hhint)
      (hq.hint_head hint hhint) htext hcode]
    exact SearchPlan.isSome_matchHint?_iff hhint hplain
  simp only [matchesAt_iff, SearchPlan.candidate?_eq_some_iff]
  constructor
  · rintro ⟨r, line, hmem, hmatch, hnumber, -⟩
    refine ⟨line, hmem, hnumber.symm, (hline line hmem).1 ?_⟩
    rw [hmatch]
    rfl
  · rintro ⟨line, hmem, rfl, hreaches⟩
    obtain ⟨r, hmatch⟩ := Option.isSome_iff_exists.1 ((hline line hmem).2 hreaches)
    exact ⟨r, line, hmem, hmatch, rfl, trivial⟩

theorem exists_hintCandidate_iff :
    (∃ c, findCandidate? t q d = some c ∧ c.tier = .hint ∧ c.line = i) ↔
      (∃ r, MatchesAt t q d .hint i r) ∧ ∀ j < i, ¬ ∃ r, MatchesAt t q d .hint j r := by
  constructor
  · rintro ⟨c, hc, htier, rfl⟩
    obtain ⟨hmatch, hfirst, -⟩ := findCandidate?_eq_some_iff.1 hc
    rw [htier] at hmatch hfirst
    exact ⟨⟨c.range, hmatch⟩, fun j hj ⟨r, hr⟩ => hfirst j hj r hr⟩
  · rintro ⟨⟨r, hmatch⟩, hfirst⟩
    refine ⟨⟨i, r, .hint⟩, findCandidate?_eq_some_iff.2 ⟨hmatch, ?_, ?_⟩, rfl, rfl⟩
    · exact fun j hj r hr => hfirst j hj ⟨r, hr⟩
    · exact fun tier hrank => absurd hrank (Nat.not_lt_zero _)

def LocatedByHint (t : Source) (q : Query) (d : Dialect) (i : Nat) : Prop :=
  ∃ p, locate? t q d = some p ∧ p.line = i ∧ (findCandidate? t q d).map (·.tier) = some .hint

/-- Line `i` is the first eligible one of which `P` holds. -/
def FirstEligible (t : Source) (q : Query) (d : Dialect) (P : List Char → Prop) (i : Nat) : Prop :=
  (∃ line ∈ eligibleLines t q d, line.number = i ∧ P line.text) ∧
    ∀ line ∈ eligibleLines t q d, line.number < i → ¬ P line.text

theorem locatedByHint_iff : LocatedByHint t q d i ↔
    ∃ c, findCandidate? t q d = some c ∧ c.tier = .hint ∧ c.line = i := by
  constructor
  · rintro ⟨p, hp, rfl, htier⟩
    obtain ⟨c, hc, rfl⟩ := Option.map_eq_some_iff.1 hp
    rw [hc] at htier
    exact ⟨c, hc, Option.some.inj htier, rfl⟩
  · rintro ⟨c, hc, htier, rfl⟩
    exact ⟨c.position t, by rw [locate?, hc]; rfl, rfl, by rw [hc, Option.map_some, htier]⟩

theorem locatedByHint_iff_reaches (hq : q.Trimmed) (hhint : q.hint = some hint)
    (hplain : Qualified.split? q.name d.qualifiers = none) :
    LocatedByHint t q d i ↔ FirstEligible t q d (ReachesHint d.comments hint) i := by
  rw [locatedByHint_iff, exists_hintCandidate_iff]
  simp only [exists_matchesAt_hint_iff hq hhint hplain, FirstEligible]
  refine and_congr_right fun _ => ?_
  constructor
  · exact fun hnone line hmem hlt hreaches => hnone line.number hlt ⟨line, hmem, rfl, hreaches⟩
  · rintro hnone j hj ⟨line, hmem, rfl, hreaches⟩
    exact hnone line hmem hj hreaches

/-- For a name that is not qualified, the hint is located on the first eligible line on which the
search reaches a place where it counts, and nowhere else. If the hint never overlaps itself, that
is the first eligible line on which it counts at all. -/
theorem located_by_hint (t : Source) (d : Dialect) (name : List Char) (raw : Option (List Char))
    (mode : SearchMode) (q : Query) (hq : Query.ofText name raw mode = .ok q) (hint : List Char)
    (hhint : q.hint = some hint) (hplain : Qualified.split? q.name d.qualifiers = none) :
    (∀ i, LocatedByHint t q d i ↔ FirstEligible t q d (ReachesHint d.comments hint) i) ∧
    (Text.Unbordered hint → ∀ i, LocatedByHint t q d i ↔
      FirstEligible t q d (fun line => ∃ k, HintStandsAt d.comments hint line k) i) := by
  have hexact : ∀ i, LocatedByHint t q d i ↔
      FirstEligible t q d (ReachesHint d.comments hint) i := fun i =>
    locatedByHint_iff_reaches (Query.trimmed_of_ofText hq) hhint hplain
  refine ⟨hexact, fun hn i => ?_⟩
  have hreaches : ReachesHint d.comments hint =
      fun line => ∃ k, HintStandsAt d.comments hint line k := by
    ext line
    constructor
    · exact fun ⟨k, _, hstands⟩ => ⟨k, hstands⟩
    · exact fun ⟨k, hstands⟩ => ⟨k, hn.reached (q.hint_ne hint hhint) hstands.here, hstands⟩
  rw [← hreaches]
  exact hexact i

theorem located_by_hint_brace :
    let t : Source := ⟨["next = head;", "tail = p.next.next;"].map String.toList⟩
    ∃ q, Query.ofText "next".toList (some " next.next".toList) .usage = .ok q ∧
      locate? t q Dialect.brace = some ⟨1, 14⟩ ∧
      FirstEligible t q Dialect.brace
        (ReachesHint Dialect.brace.comments "next.next".toList) 1 := by
  intro t
  let q : Query := ⟨"next".toList, some "next.next".toList, .usage, by decide, by simp⟩
  have hq : Query.ofText "next".toList (some " next.next".toList) .usage = .ok q := rfl
  have hfound : findCandidate? t q Dialect.brace = some ⟨1, ⟨14, 18⟩, .hint⟩ := by decide +kernel
  have h : locate? t q Dialect.brace = some ⟨1, 14⟩ := by
    rw [locate?, hfound]
    rfl
  have hfirst := ((located_by_hint t Dialect.brace _ _ _ q hq "next.next".toList rfl
    (by decide)).1 1).1 ⟨⟨1, 14⟩, h, rfl, congrArg (Option.map _) hfound⟩
  exact ⟨q, hq, h, hfirst⟩

/-- A place where the hint counts is hidden by one where a dot follows it, so an earlier line with
the name alone is located. -/
theorem not_located_by_hint :
    let t : Source := ⟨["next = head;", "tail = p.next.next.next;"].map String.toList⟩
    let hint := "next.next".toList
    ∃ q, Query.ofText "next".toList (some hint) .usage = .ok q ∧
      Qualified.split? q.name Dialect.brace.qualifiers = none ∧
      FirstEligible t q Dialect.brace
        (fun line => ∃ k, HintStandsAt Dialect.brace.comments hint line k) 1 ∧
      locate? t q Dialect.brace = some ⟨0, 0⟩ ∧
      ¬ ∃ p, locate? t q Dialect.brace = some p ∧ p.line = 1 := by
  intro t hint
  let q : Query := ⟨"next".toList, some hint, .usage, by decide, by simp [hint]⟩
  let first := "next = head;".toList
  let second := "tail = p.next.next.next;".toList
  have h : locate? t q Dialect.brace = some ⟨0, 0⟩ := by decide +kernel
  have heligible : eligibleLines t q Dialect.brace = [⟨0, first, first⟩, ⟨1, second, second⟩] := by
    decide +kernel
  have hlive : ¬ Dialect.brace.comments.Removes second (Text.byteLength (second.take 14)) := by
    have hopen : Dialect.brace.comments.openIndex? second = none := rfl
    intro hr
    cases hr with
    | block opens =>
        rw [hopen] at opens
        cases opens
    | trailing marker => cases marker
    | unclosed opens =>
        rw [hopen] at opens
        cases opens
  have hstands : HintStandsAt Dialect.brace.comments hint second 14 := by
    refine ⟨⟨";".toList, rfl⟩, hlive, fun _ c hc => ?_, fun _ c hc => ?_⟩
    · cases hc
      decide +kernel
    · cases hc
      decide +kernel
  refine ⟨q, rfl, by decide, ⟨⟨⟨1, second, second⟩, ?_, rfl, 14, hstands⟩, ?_⟩, h, ?_⟩
  · rw [heligible]
    simp
  · rintro line hmem hlt ⟨k, hk⟩
    rw [heligible] at hmem
    rcases List.mem_pair.1 hmem with rfl | rfl
    · have hinfix : hint <:+: first := hk.here.isInfix.trans (List.drop_suffix k first).isInfix
      exact absurd hinfix (by decide)
    · exact absurd hlt (Nat.lt_irrefl 1)
  · rw [h]
    simp

end CodeSpan
