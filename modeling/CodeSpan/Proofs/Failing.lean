import Mathlib.Data.List.Basic

/-!
# Computations that can fail

A computation of several steps succeeds only if each of its steps does. So what is known of one
step is known of a whole run: every element read gave its result, and what a step keeps, a run
over any list keeps.
-/

namespace CodeSpan

variable {α β ε : Type} {b b' : β} {y : β} {s rest : List α} {ys : List β}

theorem bind_eq_ok_iff {x : Except ε α} {g : α → Except ε β} :
    x >>= g = .ok b ↔ ∃ a, x = .ok a ∧ g a = .ok b := by
  cases x with
  | error e => exact ⟨fun h => (by cases h), fun ⟨_, h, _⟩ => (by cases h)⟩
  | ok a => exact ⟨fun h => ⟨a, rfl, h⟩, fun ⟨_, h, hb⟩ => (by cases h; exact hb)⟩

theorem exists_of_mem_mapM {g : α → Except ε β} (h : s.mapM g = .ok ys) (hy : y ∈ ys) :
    ∃ x ∈ s, g x = .ok y := by
  induction s generalizing ys with
  | nil =>
      cases h
      cases hy
  | cons x s ih =>
      rw [List.mapM_cons] at h
      obtain ⟨first, hfirst, h⟩ := bind_eq_ok_iff.1 h
      obtain ⟨others, hothers, h⟩ := bind_eq_ok_iff.1 h
      cases h
      rcases List.mem_cons.1 hy with rfl | hy
      · exact ⟨x, List.mem_cons_self, hfirst⟩
      · obtain ⟨x', hx', hy'⟩ := ih hothers hy
        exact ⟨x', List.mem_cons_of_mem x hx', hy'⟩

section Run

variable {step : β → α → Except ε β} {x : α}

theorem foldlM_cons_of_step (h : step b x = .ok b') :
    (x :: s).foldlM step b = s.foldlM step b' := by
  rw [List.foldlM_cons, h]
  rfl

theorem foldlM_append_of_read (h : s.foldlM step b = .ok b') :
    (s ++ rest).foldlM step b = rest.foldlM step b' := by
  rw [List.foldlM_append, h]
  rfl

/-- What every step keeps, a whole run keeps. -/
theorem foldlM_keeps {P : β → Prop} (hstep : ∀ b x b', P b → step b x = .ok b' → P b')
    (hb : P b) (h : s.foldlM step b = .ok b') : P b' := by
  induction s generalizing b with
  | nil =>
      cases h
      exact hb
  | cons x s ih =>
      rw [List.foldlM_cons] at h
      obtain ⟨next, hnext, h⟩ := bind_eq_ok_iff.1 h
      exact ih (hstep b x next hb hnext) h

end Run

end CodeSpan
