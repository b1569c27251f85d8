import CodeSpan.Block
import CodeSpan.Dialect.Kind
import CodeSpan.Proofs.BlankCode
import CodeSpan.Proofs.CommentChunk
import CodeSpan.Proofs.Totals

/-!
# Facts about the dialects in stock

Another fallback changes nothing else of a dialect. Under every fallback the comment markers of
a dialect in stock can be told apart, and all its patterns are solid.
-/

namespace CodeSpan

theorem Dialect.withFallback_eq_ok_iff {d e : Dialect} {f : Fallback} :
    d.withFallback f = .ok e ↔
      ∃ h : f ≠ .window 0, e = { d with fallback := f, fallback_ne := h } := by
  unfold Dialect.withFallback
  split
  · next h => simp [h]
  · next h =>
      constructor
      · intro he
        cases he
        exact ⟨h, rfl⟩
      · rintro ⟨-, rfl⟩
        rfl

theorem Dialect.fallback_withFallback {d e : Dialect} {f : Fallback}
    (h : d.withFallback f = .ok e) : e.fallback = f := by
  obtain ⟨-, rfl⟩ := withFallback_eq_ok_iff.1 h
  rfl

theorem Dialect.syntax_of_withFallback {d e : Dialect} {f : Fallback}
    (h : d.withFallback f = .ok e) :
    e.comments = d.comments ∧ e.blocks = d.blocks ∧ e.inlineBlocks = d.inlineBlocks ∧
      e.implicitOpen = d.implicitOpen := by
  obtain ⟨-, rfl⟩ := withFallback_eq_ok_iff.1 h
  exact ⟨rfl, rfl, rfl, rfl⟩

theorem BlockRules.Solid.counts {rules : BlockRules} (hr : rules.Solid) {line : LineClass}
    (hl : line.Silent) : rules.opensOn line = 0 ∧ rules.closesOn line = 0 := by
  cases line with
  | comment => exact ⟨rfl, rfl⟩
  | code code => exact ⟨countOpens_of_blank hr hl, countCloses_of_blank hr hl⟩

/-- Every set of rules that a dialect may select is solid. -/
def Dialect.Solid (d : Dialect) : Prop :=
  d.blocks.Solid ∧ ∀ rules ∈ d.inlineBlocks, rules.Solid

/-- A start line selects the rules of the dialect or those for its inline blocks. -/
theorem Dialect.selectRules_mem (d : Dialect) (first : LineClass) :
    (d.selectRules first).1 = d.blocks ∨ (d.selectRules first).1 ∈ d.inlineBlocks := by
  unfold Dialect.selectRules
  dsimp only
  split
  · exact .inl rfl
  · next rules hin =>
      split
      · exact .inl rfl
      · split
        · exact .inr hin
        · exact .inl rfl

theorem Dialect.Solid.selectRules {d : Dialect} (hd : d.Solid) (first : LineClass) :
    (d.selectRules first).1.Solid := by
  rcases d.selectRules_mem first with hblocks | hinline
  · exact hblocks ▸ hd.1
  · exact hd.2 _ hinline

theorem Dialect.solid_braceBlocks : Dialect.braceBlocks.Solid := by
  decide

theorem Dialect.solid_keywordBlocks : Dialect.keywordBlocks.Solid := by
  decide

namespace DialectKind

variable {kind : DialectKind} {f : Fallback} {d : Dialect}

theorem distinct_comments (kind : DialectKind) : kind.dialect.comments.Distinct := by
  cases kind <;> exact ⟨by decide, by decide, by decide, by decide⟩

theorem distinct (h : kind.dialect.withFallback f = .ok d) : d.comments.Distinct := by
  obtain ⟨-, rfl⟩ := Dialect.withFallback_eq_ok_iff.1 h
  exact kind.distinct_comments

theorem solid (h : kind.dialect.withFallback f = .ok d) : d.Solid := by
  obtain ⟨-, rfl⟩ := Dialect.withFallback_eq_ok_iff.1 h
  cases kind with
  | brace =>
      refine ⟨Dialect.solid_braceBlocks, ?_⟩
      intro rules hin
      cases hin
  | keyword =>
      refine ⟨Dialect.solid_keywordBlocks, ?_⟩
      intro rules hin
      change some Dialect.braceBlocks = some rules at hin
      cases hin
      exact Dialect.solid_braceBlocks

end DialectKind

end CodeSpan
