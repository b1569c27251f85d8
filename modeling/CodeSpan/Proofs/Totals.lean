import CodeSpan.Block
import Mathlib.Algebra.GroupWithZero.Nat
import Mathlib.Data.List.Basic

/-!
# Running totals of a block

The count of a block stops on a line that depends only on the totals over the lines read so
far. The totals are sums over a list of classified lines, and the count is judged by them: it
balances at the first distance where they balance, unless the window was used up before.
-/

namespace CodeSpan

namespace BlockRules

def opensOn (rules : BlockRules) : LineClass → Nat
  | .comment => 0
  | .code code => rules.countOpens code

def closesOn (rules : BlockRules) : LineClass → Nat
  | .comment => 0
  | .code code => rules.countCloses code

end BlockRules

namespace Tally

/-- The totals after some more lines. -/
def after (n : Tally) (rules : BlockRules) (lines : List LineClass) : Tally :=
  ⟨n.opened + (lines.map rules.opensOn).sum, n.closed + (lines.map rules.closesOn).sum⟩

@[simp] theorem after_nil (n : Tally) (rules : BlockRules) : n.after rules [] = n := rfl

theorem add_eq (n : Tally) (rules : BlockRules) (line : LineClass) :
    n.add rules line = ⟨n.opened + rules.opensOn line, n.closed + rules.closesOn line⟩ := by
  cases line <;> rfl

theorem after_cons (n : Tally) (rules : BlockRules) (line : LineClass)
    (lines : List LineClass) :
    n.after rules (line :: lines) = (n.add rules line).after rules lines := by
  simp [after, add_eq, Nat.add_assoc]

theorem after_append (n : Tally) (rules : BlockRules) (lines more : List LineClass) :
    n.after rules (lines ++ more) = (n.after rules lines).after rules more := by
  simp [after, Nat.add_assoc]

theorem opened_le_after (n : Tally) (rules : BlockRules) (lines : List LineClass) :
    n.opened ≤ (n.after rules lines).opened :=
  Nat.le_add_right _ _

end Tally

namespace Fallback

@[simp] theorem exhausted_fail (distance : Nat) (n : Tally) :
    Fallback.fail.exhausted distance n = false := rfl

theorem exhausted_of_opened_pos (f : Fallback) (distance : Nat) {n : Tally} (h : 0 < n.opened) :
    f.exhausted distance n = false := by
  cases f with
  | fail => rfl
  | window size => simp [exhausted, Nat.ne_of_gt h]

end Fallback

/-- Whether a count goes on after a line: it has not balanced, and the window has lines left. -/
def Fallback.GoesOn (f : Fallback) (distance : Nat) (n : Tally) : Prop :=
  ¬ n.Balanced ∧ f.exhausted distance n = false

theorem countBlock_cons_of_goesOn {rules : BlockRules} {f : Fallback} {distance : Nat} {n : Tally}
    {line : LineClass} {lines : List LineClass} (h : f.GoesOn distance (n.add rules line)) :
    countBlock rules f distance n (line :: lines) =
      countBlock rules f (distance + 1) (n.add rules line) lines := by
  rw [countBlock, if_neg h.1, if_neg (by simp [h.2])]

/-- A count balances at the first distance that stops it, if the totals balance there. -/
theorem countBlock_of_balanced {rules : BlockRules} {f : Fallback} {distance k : Nat} {n : Tally}
    {lines : List LineClass} (hk : k < lines.length)
    (hbal : (n.after rules (lines.take (k + 1))).Balanced)
    (hon : ∀ j < k, f.GoesOn (distance + j) (n.after rules (lines.take (j + 1)))) :
    countBlock rules f distance n lines = .balanced (distance + k) := by
  induction lines generalizing distance k n with
  | nil => simp at hk
  | cons line lines ih =>
      cases k with
      | zero =>
          have hb : (n.add rules line).Balanced := by simpa [Tally.after_cons] using hbal
          rw [countBlock, if_pos hb, Nat.add_zero]
      | succ k =>
          have hfirst : f.GoesOn distance (n.add rules line) := by
            simpa [Tally.after_cons] using hon 0 (Nat.succ_pos k)
          rw [countBlock_cons_of_goesOn hfirst,
            ih (Nat.lt_of_succ_lt_succ hk) (by simpa [Tally.after_cons] using hbal) ?_]
          · rw [Nat.add_assoc, Nat.add_comm 1 k]
          · intro j hj
            have := hon (j + 1) (Nat.succ_lt_succ hj)
            simpa [Tally.after_cons, Nat.add_assoc, Nat.add_comm 1 j] using this

/-- A count that never balances while it goes on stays unclosed, and reports the totals over
all lines if it reads them all. -/
theorem countBlock_of_not_balanced {rules : BlockRules} {f : Fallback} {distance : Nat}
    {n : Tally} {lines : List LineClass}
    (h : ∀ k < lines.length, (n.after rules (lines.take (k + 1))).Balanced →
      ∃ j < k, ¬ f.GoesOn (distance + j) (n.after rules (lines.take (j + 1)))) :
    ∃ m, countBlock rules f distance n lines = .unclosed m ∧
      (f = .fail → m = n.after rules lines) := by
  induction lines generalizing distance n with
  | nil => exact ⟨n, rfl, fun _ => rfl⟩
  | cons line lines ih =>
      have hfirst : ¬ (n.add rules line).Balanced := by
        intro hb
        obtain ⟨j, hj, -⟩ := h 0 (Nat.succ_pos _) (by simpa [Tally.after_cons] using hb)
        exact Nat.not_lt_zero j hj
      cases he : f.exhausted distance (n.add rules line) with
      | true =>
          refine ⟨n.add rules line, by rw [countBlock, if_neg hfirst, if_pos he], ?_⟩
          rintro rfl
          simp at he
      | false =>
          rw [countBlock_cons_of_goesOn ⟨hfirst, he⟩, Tally.after_cons]
          apply ih
          intro k hk hb
          obtain ⟨j, hj, hstop⟩ := h (k + 1) (Nat.succ_lt_succ hk)
            (by simpa [Tally.after_cons] using hb)
          cases j with
          | zero =>
              rw [List.take_succ_cons, Tally.after_cons] at hstop
              exact absurd ⟨hfirst, he⟩ hstop
          | succ j =>
              refine ⟨j, Nat.lt_of_succ_lt_succ hj, ?_⟩
              simpa [Tally.after_cons, Nat.add_assoc, Nat.add_comm 1 j] using hstop

end CodeSpan
