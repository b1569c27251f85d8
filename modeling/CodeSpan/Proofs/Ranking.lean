import CodeSpan.Locate.Search
import Mathlib.Data.List.Basic

/-!
# One search in place of several passes

A query can be answered by one pass over the eligible lines for each tier, each pass stopping
at the first line on which its tier matches. The search reads the lines once and keeps the best
candidate so far. From any candidate on, it finds what the passes for the better tiers find.
-/

namespace CodeSpan

namespace Tier

/-- The tiers that still beat a candidate of the given tier. -/
def before (ceiling : Option Tier) : List Tier :=
  all.takeWhile fun t => ceiling.all fun c => t.rank < c.rank

@[simp] theorem before_hint : before (some hint) = [] := rfl

theorem before_some_of_split {t : Tier} {better worse : List Tier}
    (h : all = better ++ t :: worse) : before (some t) = better := by
  have hsorted : all.Pairwise fun a b => a.rank < b.rank := by decide
  rw [h, List.pairwise_append] at hsorted
  have hlt : ∀ a ∈ better, decide (a.rank < t.rank) = true := fun a ha =>
    decide_eq_true (hsorted.2.2 a ha t List.mem_cons_self)
  rw [before, h]
  simp only [Option.all_some]
  rw [List.takeWhile_append_of_pos hlt, List.takeWhile_cons_of_neg (by simp), List.append_nil]

theorem mem_before_some {t u : Tier} : u ∈ before (some t) ↔ u.rank < t.rank := by
  cases t <;> cases u <;> decide

theorem mem_all (t : Tier) : t ∈ all := by
  cases t <;> decide

theorem rank_injective : Function.Injective rank := by
  intro t u h
  cases t <;> cases u <;> simp_all [rank]

theorem before_of_split {ceiling : Option Tier} {t : Tier} {better worse : List Tier}
    (h : before ceiling = better ++ t :: worse) : before (some t) = better := by
  obtain ⟨rest, hrest⟩ := List.takeWhile_prefix (l := all) fun t : Tier =>
    ceiling.all fun c => decide (t.rank < c.rank)
  have hall : all = better ++ t :: (worse ++ rest) := by
    rw [← List.cons_append, ← List.append_assoc, ← h]
    exact hrest.symm
  exact before_some_of_split hall

end Tier

/-- A line on which a query may match: its number, its text and its code. -/
structure EligibleLine where
  number : Nat
  text : List Char
  code : List Char
deriving DecidableEq

namespace SearchPlan

variable (plan : SearchPlan)

def eligible? : (List Char × LineClass) × Nat → Option EligibleLine
  | ((_, .comment), _) => none
  | ((text, .code code), number) =>
      if plan.isDefinition code then none else some ⟨number, text, code⟩

def eligible (lines : List (List Char × LineClass)) (number : Nat) : List EligibleLine :=
  (lines.zipIdx number).filterMap plan.eligible?

def candidate? (tier : Tier) (line : EligibleLine) : Option Candidate :=
  (plan.matchTier? tier line.text line.code).map fun r => ⟨line.number, r, tier⟩

/-- One pass: the first eligible line on which a tier matches. -/
def firstOf? (lines : List EligibleLine) (tier : Tier) : Option Candidate :=
  lines.findSome? (plan.candidate? tier)

/-- The passes for some tiers, one after the other until one finds a line. -/
def passes? (tiers : List Tier) (lines : List EligibleLine) : Option Candidate :=
  tiers.findSome? (plan.firstOf? lines)

theorem firstOf?_cons (line : EligibleLine) (lines : List EligibleLine) (tier : Tier) :
    plan.firstOf? (line :: lines) tier =
      (plan.candidate? tier line).or (plan.firstOf? lines tier) := by
  rw [firstOf?, List.findSome?_cons]
  cases plan.candidate? tier line <;> rfl

theorem passes?_nil (tiers : List Tier) : plan.passes? tiers [] = none :=
  List.findSome?_eq_none_iff.2 fun _ _ => rfl

theorem passes?_cons_of_none {tiers : List Tier} {line : EligibleLine}
    (h : ∀ t ∈ tiers, plan.candidate? t line = none) (lines : List EligibleLine) :
    plan.passes? tiers (line :: lines) = plan.passes? tiers lines := by
  induction tiers with
  | nil => rfl
  | cons t tiers ih =>
      have hrest := ih fun u hu => h u (List.mem_cons_of_mem t hu)
      unfold passes? at hrest ⊢
      rw [List.findSome?_cons, List.findSome?_cons, firstOf?_cons, h t List.mem_cons_self,
        Option.none_or, hrest]

/-- A line that a tier matches leaves later lines to the better tiers only. -/
theorem passes?_cons_of_some {better worse : List Tier} {t : Tier} {line : EligibleLine}
    {c : Candidate} (hnone : ∀ u ∈ better, plan.candidate? u line = none)
    (hsome : plan.candidate? t line = some c) (lines : List EligibleLine) :
    plan.passes? (better ++ t :: worse) (line :: lines) =
      (plan.passes? better lines).or (some c) := by
  rw [passes?, List.findSome?_append, List.findSome?_cons, firstOf?_cons, hsome, Option.some_or,
    ← plan.passes?_cons_of_none hnone]
  rfl

theorem matchLine?_eq (ceiling : Option Tier) (line code : List Char) :
    plan.matchLine? ceiling line code =
      (Tier.before ceiling).findSome? fun t =>
        (plan.matchTier? t line code).map fun r => (t, r) := rfl

/-- The search finds what the passes for the better tiers find, or else keeps its candidate. -/
theorem search_eq_passes (best : Option Candidate) (i : Nat)
    (lines : List (List Char × LineClass)) :
    plan.search best i lines =
      (plan.passes? (Tier.before (best.map (·.tier))) (plan.eligible lines i)).or best := by
  induction lines generalizing best i with
  | nil =>
      change best = (plan.passes? (Tier.before (best.map (·.tier))) []).or best
      rw [passes?_nil, Option.none_or]
  | cons head lines ih =>
      obtain ⟨text, cls⟩ := head
      cases cls with
      | comment => exact ih best (i + 1)
      | code code =>
          by_cases hdef : plan.isDefinition code = true
          · have hskip : plan.eligible ((text, .code code) :: lines) i =
                plan.eligible lines (i + 1) := by
              simp [eligible, eligible?, hdef]
            rw [search, if_pos hdef, ih, hskip]
          · have hkeep : plan.eligible ((text, .code code) :: lines) i =
                ⟨i, text, code⟩ :: plan.eligible lines (i + 1) := by
              simp [eligible, eligible?, hdef]
            rw [search, if_neg hdef, hkeep]
            cases hm : plan.matchLine? (best.map (·.tier)) text code with
            | none =>
                rw [matchLine?_eq, List.findSome?_eq_none_iff] at hm
                have hnone : ∀ t ∈ Tier.before (best.map (·.tier)),
                    plan.candidate? t ⟨i, text, code⟩ = none := fun t ht =>
                  Option.map_eq_none_iff.2 (Option.map_eq_none_iff.1 (hm t ht))
                rw [plan.passes?_cons_of_none hnone]
                exact ih best (i + 1)
            | some m =>
                obtain ⟨t, r⟩ := m
                rw [matchLine?_eq, List.findSome?_eq_some_iff] at hm
                obtain ⟨better, u, worse, hsplit, hu, hbetter⟩ := hm
                obtain ⟨r', hr', hpair⟩ := Option.map_eq_some_iff.1 hu
                cases hpair
                have hnone : ∀ u ∈ better, plan.candidate? u ⟨i, text, code⟩ = none :=
                  fun u hu => Option.map_eq_none_iff.2 (Option.map_eq_none_iff.1 (hbetter u hu))
                have hsome : plan.candidate? t ⟨i, text, code⟩ = some ⟨i, r, t⟩ := by
                  rw [candidate?, hr']
                  rfl
                rw [hsplit, plan.passes?_cons_of_some hnone hsome, Option.or_assoc,
                  Option.some_or, ← Tier.before_of_split hsplit]
                -- A line with the hint ends the search, and indeed no tier beats the hint.
                cases t with
                | hint => rw [Tier.before_hint]; rfl
                | qualified => exact ih (some ⟨i, r, .qualified⟩) (i + 1)
                | name => exact ih (some ⟨i, r, .name⟩) (i + 1)

theorem candidate?_eq_some_iff {tier : Tier} {line : EligibleLine} {c : Candidate} :
    plan.candidate? tier line = some c ↔
      plan.matchTier? tier line.text line.code = some c.range ∧ c.line = line.number ∧
        c.tier = tier := by
  obtain ⟨i, r, t⟩ := c
  simp only [candidate?, Option.map_eq_some_iff, Candidate.mk.injEq]
  constructor
  · rintro ⟨r', hr, rfl, rfl, rfl⟩
    exact ⟨hr, rfl, rfl⟩
  · rintro ⟨hr, rfl, rfl⟩
    exact ⟨r, hr, rfl, rfl, rfl⟩

theorem eligible?_eq_some_iff {text : List Char} {cls : LineClass} {i : Nat}
    {line : EligibleLine} :
    plan.eligible? ((text, cls), i) = some line ↔
      text = line.text ∧ cls = .code line.code ∧ i = line.number ∧
        plan.isDefinition line.code = false := by
  obtain ⟨number, text', code'⟩ := line
  cases cls with
  | comment => simp [eligible?]
  | code code =>
      by_cases hdef : plan.isDefinition code = true
      · simp only [eligible?, hdef, if_true, LineClass.code.injEq]
        constructor
        · intro h
          cases h
        · rintro ⟨-, rfl, -, hno⟩
          rw [hdef] at hno
          cases hno
      · simp only [eligible?, hdef, Bool.false_eq_true, if_false, Option.some.injEq,
          EligibleLine.mk.injEq, LineClass.code.injEq]
        constructor
        · rintro ⟨rfl, rfl, rfl⟩
          exact ⟨rfl, rfl, rfl, by simpa using hdef⟩
        · rintro ⟨rfl, rfl, rfl, -⟩
          exact ⟨rfl, rfl, rfl⟩

theorem mem_eligible_iff {lines : List (List Char × LineClass)} {line : EligibleLine} :
    line ∈ plan.eligible lines 0 ↔
      lines[line.number]? = some (line.text, .code line.code) ∧
        plan.isDefinition line.code = false := by
  simp only [eligible, List.mem_filterMap, Prod.exists, List.mem_zipIdx_iff_getElem?,
    eligible?_eq_some_iff]
  constructor
  · rintro ⟨_, _, _, hline, rfl, rfl, rfl, hdef⟩
    exact ⟨hline, hdef⟩
  · rintro ⟨hline, hdef⟩
    exact ⟨_, _, _, hline, rfl, rfl, rfl, hdef⟩

theorem pairwise_eligible (lines : List (List Char × LineClass)) (i : Nat) :
    (plan.eligible lines i).Pairwise fun a b => a.number < b.number := by
  have hindex : (lines.zipIdx i).Pairwise fun a b => a.2 < b.2 := by
    rw [← List.pairwise_map (f := Prod.snd), List.zipIdx_map_snd]
    exact List.pairwise_lt_range'
  apply hindex.filterMap
  rintro ⟨⟨text, cls⟩, k⟩ ⟨⟨text', cls'⟩, k'⟩ hlt a ha b hb
  obtain ⟨-, -, rfl, -⟩ := plan.eligible?_eq_some_iff.1 ha
  obtain ⟨-, -, rfl, -⟩ := plan.eligible?_eq_some_iff.1 hb
  exact hlt

end SearchPlan

end CodeSpan
