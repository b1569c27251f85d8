import CodeSpan.Proofs.Window

/-!
# Implicit opens and windows

A start line either opens a block by the rules it selects or, in a dialect with implicit opens,
counts as lying inside one. So long as no opener matches the empty text, which is all the code
that a comment has, something is open once the start line is counted. A window is given up only
while nothing is open, so it never stands in for a block that closes.
-/

namespace CodeSpan

/-- Rules none of whose openers matches the empty text. -/
def BlockRules.OpensByText (rules : BlockRules) : Prop :=
  ∀ rule ∈ rules.openers, rule.pattern.isMatch [] = false

instance (rules : BlockRules) : Decidable rules.OpensByText :=
  inferInstanceAs (Decidable (∀ _ ∈ _, _))

def Dialect.OpensByText (d : Dialect) : Prop :=
  d.blocks.OpensByText ∧ ∀ rules ∈ d.inlineBlocks, rules.OpensByText

namespace BlockRules

variable {rules : BlockRules}

theorem countOpens_pos_iff {code : List Char} :
    0 < rules.countOpens code ↔ (rules.firstOpener? code).isSome = true := by
  rw [Option.isSome_iff_ne_none, ne_eq, firstOpener?_eq_none_iff, Nat.pos_iff_ne_zero]

theorem OpensByText.firstOpener?_nil (h : rules.OpensByText) : rules.firstOpener? [] = none := by
  rw [firstOpener?_eq_none_iff, countOpens_eq_sum, List.sum_eq_zero_iff_forall_eq_nat]
  intro n hn
  obtain ⟨rule, hrule, rfl⟩ := List.mem_map.1 hn
  have hnone : rule.pattern.expr.find? [] = none :=
    Option.not_isSome_iff_eq_none.1 (Bool.eq_false_iff.1 (h rule hrule))
  rw [OpenerRule.count, Pattern.count, Expr.countHits_eq_zero_iff.2 hnone, ite_self]

end BlockRules

namespace Dialect

variable {d : Dialect}

theorem OpensByText.selectRules (hd : d.OpensByText) (first : LineClass) :
    (d.selectRules first).1.OpensByText := by
  rcases d.selectRules_mem first with hblocks | hinline
  · exact hblocks ▸ hd.1
  · exact hd.2 _ hinline

theorem selectRules_opens (himplicit : d.implicitOpen = true) (first : LineClass) :
    (d.selectRules first).2 = 1 ∨
      ((d.selectRules first).1.firstOpener? (first.code?.getD [])).isSome = true := by
  have hblocks : (if d.implicitOpen && (d.blocks.firstOpener? (first.code?.getD [])).isNone
      then 1 else 0) = 1 ∨ (d.blocks.firstOpener? (first.code?.getD [])).isSome = true := by
    cases d.blocks.firstOpener? (first.code?.getD []) with
    | none => exact .inl (by rw [himplicit]; rfl)
    | some offset => exact .inr rfl
  unfold Dialect.selectRules
  dsimp only
  split
  · exact hblocks
  · next rules _ =>
      split
      · exact hblocks
      · next offset hoffset =>
          split
          · exact .inr (by rw [hoffset]; rfl)
          · exact hblocks

theorem opened_of_selectRules (himplicit : d.implicitOpen = true) (hd : d.OpensByText)
    (first : LineClass) : 0 < (d.selectRules first).2 + (d.selectRules first).1.opensOn first := by
  rcases selectRules_opens himplicit first with hopen | hfirst
  · omega
  · cases first with
    | comment =>
        -- A comment leaves no code, and nothing opens on that.
        rw [LineClass.code?, Option.getD_none,
          (hd.selectRules .comment).firstOpener?_nil] at hfirst
        cases hfirst
    | code code =>
        have hpos := BlockRules.countOpens_pos_iff.2 hfirst
        exact Nat.lt_add_left _ hpos

end Dialect

variable {t : Source} {start : Nat} {d : Dialect}

theorem opened_at_start (himplicit : d.implicitOpen = true) (hd : d.OpensByText)
    (hs : start < t.size) : 0 < (totals t start d 0).opened := by
  have hlen := length_blockClasses t start d
  cases hc : blockClasses t start d with
  | nil =>
      rw [hc, List.length_nil] at hlen
      omega
  | cons first rest =>
      have hpos := Dialect.opened_of_selectRules himplicit hd first
      have htotals : (totals t start d 0).opened =
          (d.selectRules first).2 + (d.selectRules first).1.opensOn first := by
        rw [totals, startRules, hc]
        simp [Tally.after]
      rwa [htotals]

/-- Once something is open, a window is no longer given up. -/
theorem unexhausted_of_opened (h : 0 < (totals t start d 0).opened) (k : Nat) :
    d.fallback.exhausted k (totals t start d k) = false :=
  d.fallback.exhausted_of_opened_pos k (opened_pos_of_le (Nat.zero_le k) h)

theorem window_iff_of_unexhausted {n : Nat} (hf : d.fallback = .window n) (hs : start < t.size)
    (hx : ∀ k, d.fallback.exhausted k (totals t start d k) = false) :
    (∃ span, extract t start d = some (.ok span) ∧ span.kind = .window) ↔
      start + n < UInt64.size ∧ ∀ k, start + k < t.size → ¬ (totals t start d k).Balanced := by
  constructor
  · rintro ⟨span, hspan, hkind⟩
    have hend := extraction (d := d) hs
    rw [hspan] at hend
    cases hend with
    | balanced => cases hkind
    | window hnever hf' hfits =>
        rw [hf] at hf'
        cases hf'
        refine ⟨hfits, fun k hk hb => ?_⟩
        obtain ⟨m, hm⟩ := exists_closesAt_of_unexhausted hx ⟨k, hk, hb⟩
        exact hnever m hm
  · rintro ⟨hfits, hnever⟩
    exact ⟨_, extract_of_window hs hf hfits fun k hk => hnever k hk.inRange hk.balanced, rfl⟩

/-- Rules have an opener on a line exactly when they have a first one there. In a dialect with
implicit opens, of which no opener matches the empty text, something is therefore open once the
start line is counted, and a window of any size is extracted exactly when it ends and the totals
balance on no line from the start to the end of the text. -/
theorem window_never_preempts (d : Dialect) (himplicit : d.implicitOpen = true)
    (hd : d.OpensByText) (t : Source) (start : Nat) (hs : start < t.size) :
    (∀ (rules : BlockRules) (code : List Char),
      0 < rules.countOpens code ↔ (rules.firstOpener? code).isSome = true) ∧
    0 < (totals t start d 0).opened ∧
    ∀ n windowed, d.withFallback (.window n) = .ok windowed →
      ((∃ span, extract t start windowed = some (.ok span) ∧ span.kind = .window) ↔
        start + n < UInt64.size ∧
          ∀ k, start + k < t.size → ¬ (totals t start d k).Balanced) := by
  have hopen := opened_at_start himplicit hd hs
  refine ⟨fun _ _ => BlockRules.countOpens_pos_iff, hopen, ?_⟩
  intro n windowed hw
  have hopen' : 0 < (totals t start windowed 0).opened := by rwa [totals_withFallback hw]
  have hfallback := Dialect.fallback_withFallback hw
  rw [window_iff_of_unexhausted hfallback hs (unexhausted_of_opened hopen')]
  simp only [totals_withFallback hw]

/-- From a comment above two statements no line balances, and only then is the window taken; an
`end` below closes the block that the comment lies in, however small the window. -/
theorem window_never_preempts_keyword :
    let t : Source := ⟨["# if", "a = 1", "b = 2"].map String.toList⟩
    let u : Source := ⟨["# if", "a = 1", "b = 2", "end"].map String.toList⟩
    ∃ windowed, Dialect.keyword.withFallback (.window 1) = .ok windowed ∧
      (∃ span, extract t 0 windowed = some (.ok span) ∧ span.kind = .window) ∧
      ¬ ∃ span, extract u 0 windowed = some (.ok span) ∧ span.kind = .window := by
  intro t u
  let windowed : Dialect :=
    { Dialect.keyword with fallback := .window 1, fallback_ne := by decide }
  have hd : Dialect.keyword.OpensByText := by
    refine ⟨by decide +kernel, ?_⟩
    intro rules hrules
    cases hrules
    decide +kernel
  have hnever : ∀ k < 3, ¬ (totals t 0 Dialect.keyword k).Balanced := by decide +kernel
  have hcloses : (totals u 0 Dialect.keyword 3).Balanced := by decide +kernel
  have ht := (window_never_preempts Dialect.keyword rfl hd t 0 (by decide)).2.2 1 windowed rfl
  have hu := (window_never_preempts Dialect.keyword rfl hd u 0 (by decide)).2.2 1 windowed rfl
  refine ⟨windowed, rfl, ht.2 ⟨by decide, ?_⟩, ?_⟩
  · intro k hk
    rw [Nat.zero_add] at hk
    exact hnever k hk
  · rw [hu]
    exact fun h => h.2 3 (by decide) hcloses

end CodeSpan
