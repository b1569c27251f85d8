import CodeSpan.Dialect.Builtin
import CodeSpan.Proofs.DefinitionLine

/-!
# The two modes of a search

A search for usages matches on the lines on which a search for declarations matches, less those
that define the name, and its tiers find the same places there. So it never finds more, nor
better, and where the line that a search for declarations settles on defines nothing, both settle
on the same place.
-/

namespace CodeSpan

def Query.inMode (q : Query) (mode : SearchMode) : Query :=
  { q with mode := mode }

/-- Line `i` of a text is code that defines the name of a query. -/
def IsDefinitionLine (t : Source) (q : Query) (d : Dialect) (i : Nat) : Prop :=
  ∃ code, (d.comments.classes t.lines)[i]? = some (.code code) ∧
    DefinesName d.definitionKeywords (q.leafIn d) code

variable {t : Source} {q : Query} {d : Dialect} {tier : Tier} {i : Nat} {r : ByteRange}

theorem matchTier?_inMode (mode : SearchMode) (line code : List Char) :
    (SearchPlan.ofQuery (q.inMode mode) d).matchTier? tier line code =
      (SearchPlan.ofQuery q d).matchTier? tier line code := by
  cases tier <;> rfl

theorem isDefinition_declaration (code : List Char) :
    (SearchPlan.ofQuery (q.inMode .declaration) d).isDefinition code = false := rfl

theorem matchesAt_usage_iff : MatchesAt t (q.inMode .usage) d tier i r ↔
    MatchesAt t (q.inMode .declaration) d tier i r ∧ ¬ IsDefinitionLine t q d i := by
  simp only [MatchesAt, matchTier?_inMode, isDefinition_declaration, true_and]
  constructor
  · rintro ⟨line, code, hline, hcode, hdef, hmatch⟩
    refine ⟨⟨line, code, hline, hcode, hmatch⟩, ?_⟩
    rintro ⟨code', hcode', hname⟩
    rw [hcode] at hcode'
    cases hcode'
    have htrue := isDefinition_iff (q := q.inMode .usage).2 ⟨rfl, hname⟩
    rw [hdef] at htrue
    cases htrue
  · rintro ⟨⟨line, code, hline, hcode, hmatch⟩, hno⟩
    refine ⟨line, code, hline, hcode, ?_, hmatch⟩
    rw [← Bool.not_eq_true, isDefinition_iff]
    exact fun h => hno ⟨code, hcode, h.2⟩

/-- A search for usages finds nothing where a search for declarations finds nothing, finds the
same place unless that is on a line that defines the name, and never finds a better one. -/
theorem usage_restricts_declaration (t : Source) (q : Query) (d : Dialect) :
    (locate? t (q.inMode .declaration) d = none → locate? t (q.inMode .usage) d = none) ∧
    (∀ p, locate? t (q.inMode .declaration) d = some p → ¬ IsDefinitionLine t q d p.line →
      locate? t (q.inMode .usage) d = some p) ∧
    ∀ c, findCandidate? t (q.inMode .usage) d = some c →
      ∃ c', findCandidate? t (q.inMode .declaration) d = some c' ∧
        (c'.tier.rank < c.tier.rank ∨ c'.tier = c.tier ∧ c'.line ≤ c.line) := by
  refine ⟨?_, ?_, ?_⟩
  · intro h
    rw [locate?, Option.map_eq_none_iff, findCandidate?_eq_none_iff] at h ⊢
    exact fun tier i r hmatch => h tier i r (matchesAt_usage_iff.1 hmatch).1
  · intro p h hno
    obtain ⟨c, hc, rfl⟩ := Option.map_eq_some_iff.1 h
    obtain ⟨hmatch, hfirst, hbetter⟩ := findCandidate?_eq_some_iff.1 hc
    refine Option.map_eq_some_iff.2 ⟨c, findCandidate?_eq_some_iff.2 ⟨?_, ?_, ?_⟩, rfl⟩
    · exact matchesAt_usage_iff.2 ⟨hmatch, hno⟩
    · exact fun j hj r hmatch' => hfirst j hj r (matchesAt_usage_iff.1 hmatch').1
    · exact fun tier hrank j r hmatch' => hbetter tier hrank j r (matchesAt_usage_iff.1 hmatch').1
  · intro c hc
    obtain ⟨hmatch, -, -⟩ := findCandidate?_eq_some_iff.1 hc
    exact (matchesAt_usage_iff.1 hmatch).1.exists_candidate

theorem usage_restricts_declaration_brace :
    let t : Source := ⟨["fn new(x)", "y = new(1);", "z = new(2);"].map String.toList⟩
    ∃ plain hinted : Query, plain.name = "new".toList ∧ hinted.name = "new".toList ∧
      locate? t (plain.inMode .declaration) Dialect.brace = some ⟨0, 3⟩ ∧
      locate? t (plain.inMode .usage) Dialect.brace = some ⟨1, 4⟩ ∧
      locate? t (hinted.inMode .declaration) Dialect.brace = some ⟨2, 4⟩ ∧
      locate? t (hinted.inMode .usage) Dialect.brace = some ⟨2, 4⟩ := by
  intro t
  let plain : Query := ⟨"new".toList, none, .usage, by decide, by simp⟩
  let hinted : Query := ⟨"new".toList, some "z = new".toList, .usage, by decide, by simp⟩
  have hdeclared : locate? t (hinted.inMode .declaration) Dialect.brace = some ⟨2, 4⟩ := by
    decide +kernel
  have hno : ¬ IsDefinitionLine t hinted Dialect.brace 2 := by
    rintro ⟨code, hcode, hname⟩
    have hline : (Dialect.brace.comments.classes t.lines)[2]? =
        some (.code "z = new(2);".toList) := by
      decide +kernel
    rw [hline] at hcode
    cases hcode
    exact absurd hname (by decide +kernel)
  have hfound := (usage_restricts_declaration t hinted Dialect.brace).2.1 ⟨2, 4⟩ hdeclared hno
  exact ⟨plain, hinted, rfl, rfl, by decide +kernel, by decide +kernel, hdeclared, hfound⟩

end CodeSpan
