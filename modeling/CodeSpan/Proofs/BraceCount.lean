import CodeSpan.Dialect.Builtin
import CodeSpan.Proofs.BlankCode

/-!
# Counting braces

A pattern for a single character has one hit for every time the character occurs, because no
two of its hits can overlap. Brace rules therefore count braces.
-/

namespace CodeSpan

namespace Expr

/-- A pattern for one character is found wherever the character stands. -/
theorem length_hitsFrom_single (x : Char) {c : Cursor} {s : List Char} (hs : c.after = s)
    (touching : Bool) : ((Expr.set (.single x)).hitsFrom c 0 touching s).length = s.count x := by
  induction s generalizing c touching with
  | nil =>
      have hstops : (Expr.set (.single x)).stops c = [] := by rw [stops, hs]
      rw [hitsFrom, hitAt?, hstops]
      rfl
  | cons y s ih =>
      by_cases hy : y = x
      · subst hy
        have hstops : (Expr.set (.single y)).stops c = [c.advance y s] := by
          rw [stops, hs]
          exact if_pos (CharSet.mem_single.2 rfl)
        have hne : c.advance y s ≠ c := Cursor.advance_ne hs
        have hhit : (Expr.set (.single y)).hitAt? touching c = some ⟨c, c.advance y s⟩ := by
          rw [hitAt?, hstops]
          simp [hne]
        have hone : (c.advance y s).before.length - c.before.length = 1 := by
          simp [Cursor.advance]
        rw [hitsFrom, hhit]
        dsimp only
        rw [hone, List.length_cons, Nat.sub_self, ih rfl, List.count_cons_self]
      · have hstops : (Expr.set (.single x)).stops c = [] := by
          rw [stops, hs]
          exact if_neg fun h => hy (CharSet.mem_single.1 h)
        rw [hitsFrom, hitAt?, hstops]
        dsimp only [List.head?_nil]
        rw [ih rfl, List.count_cons_of_ne hy]

theorem countHits_single (x : Char) (s : List Char) :
    (Expr.set (.single x)).countHits s = s.count x :=
  length_hitsFrom_single x rfl false

end Expr

namespace Dialect

theorem countOpens_braceBlocks (code : List Char) :
    braceBlocks.countOpens code = code.count '\x7b' := by
  have hexpr : openBrace.pattern.expr = .set (.single '\x7b') := by decide
  have hrule : openBrace.count code = code.count '\x7b' := by
    rw [← Expr.countHits_single, ← hexpr]
    rfl
  rw [BlockRules.countOpens_eq_sum, braceBlocks, List.map_singleton, List.sum_singleton, hrule]

theorem countCloses_braceBlocks (code : List Char) :
    braceBlocks.countCloses code = code.count '\x7d' := by
  have hexpr : braceBlocks.closer.expr = .set (.single '\x7d') := by decide
  rw [BlockRules.countCloses, Pattern.count, hexpr, Expr.countHits_single]

end Dialect

end CodeSpan
