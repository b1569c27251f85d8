import CodeSpan.Proofs.Extraction
import CodeSpan.Proofs.LiveCode
import CodeSpan.Proofs.Stock
import Mathlib.Algebra.Order.BigOperators.Group.List
import Mathlib.Algebra.Order.Group.Nat

/-!
# Totals are bounded by the text

A search hits a line at most once in front of every character and once at its end, and comments
never make a line longer. The totals of a block are therefore bounded by the size of the text
in bytes and lines and by the number of opener rules.
-/

namespace CodeSpan

namespace Expr

theorem length_hitsFrom_le (p : Expr) (c : Cursor) (skip : Nat) (touching : Bool)
    (s : List Char) : (p.hitsFrom c skip touching s).length ≤ s.length + 1 := by
  induction s generalizing c skip touching with
  | nil =>
      cases skip with
      | zero =>
          rw [hitsFrom]
          cases p.hitAt? touching c <;> simp
      | succ skip => simp [hitsFrom]
  | cons x s ih =>
      cases skip with
      | zero =>
          rw [hitsFrom]
          split
          · exact Nat.le_succ_of_le (ih _ _ _)
          · exact Nat.succ_le_succ (ih _ _ _)
      | succ skip => exact Nat.le_succ_of_le (ih _ _ _)

theorem countHits_le (p : Expr) (s : List Char) : p.countHits s ≤ Text.byteLength s + 1 :=
  Nat.le_trans (p.length_hitsFrom_le _ _ _ _) (Nat.succ_le_succ (Text.length_le_byteLength s))

end Expr

/-- The places where a search can hit: in front of a byte of a line, or at the end of a line. -/
def Source.places (t : Source) : Nat :=
  (t.lines.map fun line => Text.byteLength line + 1).sum

namespace BlockRules

variable (rules : BlockRules) {line : LineClass} {n : Nat}

theorem countOpens_le (code : List Char) :
    rules.countOpens code ≤ rules.openers.length * (Text.byteLength code + 1) := by
  rw [countOpens]
  induction rules.openers with
  | nil => simp
  | cons rule openers ih =>
      have hrule : rule.count code ≤ Text.byteLength code + 1 := by
        rw [OpenerRule.count]
        split
        · exact rule.pattern.expr.countHits_le code
        · exact Nat.zero_le _
      rw [List.foldr_cons, List.length_cons, Nat.succ_mul]
      omega

theorem opensOn_le (h : ∀ code, line = .code code → Text.byteLength code ≤ n) :
    rules.opensOn line ≤ rules.openers.length * (n + 1) := by
  cases line with
  | comment => exact Nat.zero_le _
  | code code =>
      exact (rules.countOpens_le code).trans (Nat.mul_le_mul_left _ (Nat.succ_le_succ (h code rfl)))

theorem closesOn_le (h : ∀ code, line = .code code → Text.byteLength code ≤ n) :
    rules.closesOn line ≤ n + 1 := by
  cases line with
  | comment => exact Nat.zero_le _
  | code code => exact (rules.closer.expr.countHits_le code).trans (Nat.succ_le_succ (h code rfl))

end BlockRules

variable {σ : CommentSyntax} {t : Source} {start k : Nat} {d : Dialect}

theorem CommentSyntax.sum_counts_scan_le (hσ : σ.Delimited) (rules : BlockRules) (r : Region)
    (lines : List (List Char)) :
    (((σ.scan r lines).map (·.1)).map rules.opensOn).sum ≤
        rules.openers.length * Source.places ⟨lines⟩ ∧
      (((σ.scan r lines).map (·.1)).map rules.closesOn).sum ≤ Source.places ⟨lines⟩ := by
  induction lines generalizing r with
  | nil => exact ⟨Nat.zero_le _, Nat.zero_le _⟩
  | cons line lines ih =>
      have hcode : ∀ code, (σ.classify r line).1 = .code code →
          Text.byteLength code ≤ Text.byteLength line := by
        intro code hcode
        obtain ⟨_, _, _, _, hs⟩ := exists_stripped hσ hcode
        exact hs.byteLength_code_le
      have hopens := rules.opensOn_le hcode
      have hcloses := rules.closesOn_le hcode
      obtain ⟨ihOpens, ihCloses⟩ := ih (σ.classify r line).2
      simp only [Source.places, scan, List.map_cons, List.sum_cons, Nat.mul_add] at *
      omega

/-- The rules start with one opener at most. -/
theorem Dialect.selectRules_le_one (d : Dialect) (first : LineClass) :
    (d.selectRules first).2 ≤ 1 := by
  unfold Dialect.selectRules
  dsimp only
  split
  · split <;> omega
  · split
    · split <;> omega
    · split
      · exact Nat.zero_le _
      · split <;> omega

theorem Source.places_take_drop_le (t : Source) (start k : Nat) :
    Source.places ⟨(t.lines.drop start).take k⟩ ≤ t.places := by
  have hsub : ((t.lines.drop start).take k).Sublist t.lines :=
    (List.take_sublist _ _).trans (List.drop_sublist _ _)
  exact (hsub.map _).sum_le_sum fun _ _ => Nat.zero_le _

theorem totals_le (t : Source) (start : Nat) (d : Dialect) (k : Nat) :
    (totals t start d k).opened ≤ (startRules t start d).1.openers.length * t.places + 1 ∧
      (totals t start d k).closed ≤ t.places := by
  have hfirst := d.selectRules_le_one ((blockClasses t start d).headD .comment)
  have hplaces := t.places_take_drop_le start (k + 1)
  have hmul := Nat.mul_le_mul_left (startRules t start d).1.openers.length hplaces
  obtain ⟨hopens, hcloses⟩ := CommentSyntax.sum_counts_scan_le d.comments_delimited
    (startRules t start d).1 .outside ((t.lines.drop start).take (k + 1))
  rw [← startRules] at hfirst
  rw [totals, Tally.after, blockClasses, CommentSyntax.classes_take, CommentSyntax.classes]
  constructor <;> dsimp only <;> omega

end CodeSpan
