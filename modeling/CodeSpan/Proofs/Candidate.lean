import CodeSpan.Proofs.Ranking

/-!
# Candidates by rank

The candidate found in a text is on the first line with the hint, or else on the first with the
qualified name, or else on the first with the name itself, among the lines that are code and no
definition passed over. This says exactly when a candidate is found, line by line.
-/

namespace CodeSpan

/-- The lines of a text on which a query may match: code, and no definition that is passed over. -/
def eligibleLines (t : Source) (q : Query) (d : Dialect) : List EligibleLine :=
  (SearchPlan.ofQuery q d).eligible (t.lines.zip (d.comments.classes t.lines)) 0

/-- The answer of one pass for each tier, in the order of the tiers. -/
def rankedCandidate? (t : Source) (q : Query) (d : Dialect) : Option Candidate :=
  let plan := SearchPlan.ofQuery q d
  let lines := eligibleLines t q d
  (plan.firstOf? lines .hint).or
    ((plan.firstOf? lines .qualified).or (plan.firstOf? lines .name))

def Candidate.position (t : Source) (c : Candidate) : Position :=
  ⟨c.line, columnAt ((t.line? c.line).getD []) c.range.start⟩

theorem findCandidate?_eq_passes (t : Source) (q : Query) (d : Dialect) :
    findCandidate? t q d = (SearchPlan.ofQuery q d).passes? Tier.all (eligibleLines t q d) := by
  rw [findCandidate?, SearchPlan.search_eq_passes, Option.or_none]
  rfl

theorem passes?_all (plan : SearchPlan) (lines : List EligibleLine) :
    plan.passes? Tier.all lines = (plan.firstOf? lines .hint).or
      ((plan.firstOf? lines .qualified).or (plan.firstOf? lines .name)) := by
  cases hh : plan.firstOf? lines .hint <;> cases hq : plan.firstOf? lines .qualified <;>
    cases hn : plan.firstOf? lines .name <;>
    simp [SearchPlan.passes?, Tier.all, hh, hq, hn]

def MatchesAt (t : Source) (q : Query) (d : Dialect) (tier : Tier) (i : Nat) (r : ByteRange) :
    Prop :=
  ∃ text code, t.lines[i]? = some text ∧ (d.comments.classes t.lines)[i]? = some (.code code) ∧
    (SearchPlan.ofQuery q d).isDefinition code = false ∧
    (SearchPlan.ofQuery q d).matchTier? tier text code = some r

variable {t : Source} {q : Query} {d : Dialect}

theorem matchesAt_iff {tier : Tier} {i : Nat} {r : ByteRange} :
    MatchesAt t q d tier i r ↔ ∃ line ∈ eligibleLines t q d,
      (SearchPlan.ofQuery q d).candidate? tier line = some ⟨i, r, tier⟩ := by
  simp only [eligibleLines, SearchPlan.mem_eligible_iff, SearchPlan.candidate?_eq_some_iff,
    List.getElem?_zip_eq_some]
  constructor
  · rintro ⟨text, code, hline, hcls, hdef, hmatch⟩
    exact ⟨⟨i, text, code⟩, ⟨⟨hline, hcls⟩, hdef⟩, hmatch, rfl, trivial⟩
  · rintro ⟨line, ⟨⟨hline, hcls⟩, hdef⟩, hmatch, rfl, -⟩
    exact ⟨line.text, line.code, hline, hcls, hdef, hmatch⟩

theorem firstOf?_eq_none_iff {tier : Tier} :
    (SearchPlan.ofQuery q d).firstOf? (eligibleLines t q d) tier = none ↔
      ∀ i r, ¬ MatchesAt t q d tier i r := by
  simp only [SearchPlan.firstOf?, List.findSome?_eq_none_iff, matchesAt_iff]
  constructor
  · rintro h i r ⟨line, hmem, hc⟩
    rw [h line hmem] at hc
    cases hc
  · intro h line hmem
    cases hc : (SearchPlan.ofQuery q d).candidate? tier line with
    | none => rfl
    | some c =>
        obtain ⟨-, -, rfl⟩ := (SearchPlan.candidate?_eq_some_iff _).1 hc
        exact absurd ⟨line, hmem, hc⟩ (h c.line c.range)

theorem MatchesAt.range_eq {tier : Tier} {i : Nat} {r r' : ByteRange}
    (h : MatchesAt t q d tier i r) (h' : MatchesAt t q d tier i r') : r = r' := by
  obtain ⟨text, code, hline, hcls, -, hmatch⟩ := h
  obtain ⟨text', code', hline', hcls', -, hmatch'⟩ := h'
  rw [hline] at hline'
  rw [hcls] at hcls'
  cases hline'
  cases hcls'
  exact Option.some.inj (hmatch.symm.trans hmatch')

theorem matchesAt_of_firstOf? {tier : Tier} {c : Candidate}
    (h : (SearchPlan.ofQuery q d).firstOf? (eligibleLines t q d) tier = some c) :
    c.tier = tier ∧ MatchesAt t q d tier c.line c.range ∧
      ∀ j < c.line, ∀ r, ¬ MatchesAt t q d tier j r := by
  have hsorted : (eligibleLines t q d).Pairwise fun a b => a.number < b.number :=
    SearchPlan.pairwise_eligible _ _ 0
  obtain ⟨before, line, rest, hsplit, hc, hnone⟩ := List.findSome?_eq_some_iff.1 h
  obtain ⟨-, hnum, rfl⟩ := (SearchPlan.candidate?_eq_some_iff _).1 hc
  refine ⟨rfl, matchesAt_iff.2 ⟨line, by rw [hsplit]; simp, hc⟩, ?_⟩
  intro j hj r hmatch
  obtain ⟨line', hmem, hc'⟩ := matchesAt_iff.1 hmatch
  obtain ⟨-, rfl, -⟩ := (SearchPlan.candidate?_eq_some_iff _).1 hc'
  rw [hsplit] at hmem hsorted
  rcases List.mem_append.1 hmem with hbefore | hlater
  · rw [hnone line' hbefore] at hc'
    cases hc'
  · have hle : line.number ≤ line'.number := by
      rcases List.mem_cons.1 hlater with rfl | hrest
      · exact Nat.le_refl _
      · have htail := (List.pairwise_append.1 hsorted).2.1
        exact Nat.le_of_lt ((List.pairwise_cons.1 htail).1 line' hrest)
    change line'.number < c.line at hj
    omega

theorem firstOf?_eq_some_iff {tier : Tier} {c : Candidate} :
    (SearchPlan.ofQuery q d).firstOf? (eligibleLines t q d) tier = some c ↔
      c.tier = tier ∧ MatchesAt t q d tier c.line c.range ∧
        ∀ j < c.line, ∀ r, ¬ MatchesAt t q d tier j r := by
  refine ⟨matchesAt_of_firstOf?, ?_⟩
  rintro ⟨rfl, hmatch, hfirst⟩
  cases hfound : (SearchPlan.ofQuery q d).firstOf? (eligibleLines t q d) c.tier with
  | none => exact absurd hmatch (firstOf?_eq_none_iff.1 hfound _ _)
  | some c' =>
      obtain ⟨htier, hmatch', hfirst'⟩ := matchesAt_of_firstOf? hfound
      have hline : c'.line = c.line := by
        rcases Nat.lt_trichotomy c'.line c.line with hlt | heq | hlt
        · exact absurd hmatch' (hfirst _ hlt _)
        · exact heq
        · exact absurd hmatch (hfirst' _ hlt _)
      have hrange : c'.range = c.range := (hline ▸ hmatch').range_eq hmatch
      obtain ⟨i, r, tier⟩ := c
      obtain ⟨i', r', tier'⟩ := c'
      cases hline
      cases hrange
      cases htier
      rfl

/-- The candidate found is on the first line of its tier, and no better tier matches at all. -/
theorem findCandidate?_eq_some_iff {c : Candidate} :
    findCandidate? t q d = some c ↔ MatchesAt t q d c.tier c.line c.range ∧
      (∀ j < c.line, ∀ r, ¬ MatchesAt t q d c.tier j r) ∧
      ∀ tier, tier.rank < c.tier.rank → ∀ j r, ¬ MatchesAt t q d tier j r := by
  rw [findCandidate?_eq_passes, SearchPlan.passes?, List.findSome?_eq_some_iff]
  constructor
  · rintro ⟨better, tier, worse, hsplit, hfound, hnone⟩
    obtain ⟨rfl, hmatch, hfirst⟩ := firstOf?_eq_some_iff.1 hfound
    refine ⟨hmatch, hfirst, ?_⟩
    intro tier hrank
    rw [← Tier.mem_before_some, Tier.before_some_of_split hsplit] at hrank
    exact firstOf?_eq_none_iff.1 (hnone tier hrank)
  · rintro ⟨hmatch, hfirst, hbetter⟩
    obtain ⟨better, worse, hsplit⟩ := List.append_of_mem (Tier.mem_all c.tier)
    refine ⟨better, c.tier, worse, hsplit, firstOf?_eq_some_iff.2 ⟨rfl, hmatch, hfirst⟩, ?_⟩
    intro tier hmem
    rw [← Tier.before_some_of_split hsplit, Tier.mem_before_some] at hmem
    exact firstOf?_eq_none_iff.2 (hbetter tier hmem)

theorem findCandidate?_eq_none_iff :
    findCandidate? t q d = none ↔ ∀ tier i r, ¬ MatchesAt t q d tier i r := by
  rw [findCandidate?_eq_passes, SearchPlan.passes?, List.findSome?_eq_none_iff]
  constructor
  · intro h tier
    exact firstOf?_eq_none_iff.1 (h tier (Tier.mem_all tier))
  · intro h tier _
    exact firstOf?_eq_none_iff.2 (h tier)

theorem MatchesAt.exists_candidate {tier : Tier} {i : Nat} {r : ByteRange}
    (h : MatchesAt t q d tier i r) : ∃ c, findCandidate? t q d = some c ∧
      (c.tier.rank < tier.rank ∨ c.tier = tier ∧ c.line ≤ i) := by
  cases hfound : findCandidate? t q d with
  | none => exact absurd h (findCandidate?_eq_none_iff.1 hfound tier i r)
  | some c =>
      refine ⟨c, rfl, ?_⟩
      obtain ⟨-, hfirst, hbetter⟩ := findCandidate?_eq_some_iff.1 hfound
      rcases Nat.lt_trichotomy c.tier.rank tier.rank with hlt | heq | hlt
      · exact .inl hlt
      · have htier : c.tier = tier := Tier.rank_injective heq
        rw [htier] at hfirst
        exact .inr ⟨htier, Nat.le_of_not_lt fun hlt => hfirst i hlt r h⟩
      · exact absurd h (hbetter tier hlt i r)

/-- Locating a name takes one pass for each tier and answers with the first that finds a line,
so a line with the hint beats every line without it. -/
theorem locate?_eq_ranked_passes (t : Source) (q : Query) (d : Dialect) :
    locate? t q d = (rankedCandidate? t q d).map (·.position t) ∧
      ∀ i r, MatchesAt t q d .hint i r →
        ∃ c, rankedCandidate? t q d = some c ∧ c.tier = .hint ∧ c.line ≤ i := by
  have hranked : rankedCandidate? t q d = findCandidate? t q d := by
    rw [findCandidate?_eq_passes, passes?_all]
    rfl
  refine ⟨by rw [hranked]; rfl, ?_⟩
  intro i r hmatch
  cases hfound : (SearchPlan.ofQuery q d).firstOf? (eligibleLines t q d) .hint with
  | none => exact absurd hmatch (firstOf?_eq_none_iff.1 hfound i r)
  | some c =>
      obtain ⟨htier, -, hfirst⟩ := firstOf?_eq_some_iff.1 hfound
      refine ⟨c, by rw [rankedCandidate?, hfound, Option.some_or], htier, ?_⟩
      exact Nat.le_of_not_lt fun hlt => hfirst i hlt r hmatch

end CodeSpan
