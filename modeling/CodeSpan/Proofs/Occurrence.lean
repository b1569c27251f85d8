import CodeSpan.Text.Occurrence
import Mathlib.Data.List.Infix

/-!
# First and last occurrences

A search for a text that is not empty fails exactly when the text does not occur. The first
occurrence lies right behind a prefix that misses the first character of the text sought, and
the last occurrence lies behind every other one. Both are told by the number of characters
before them, and two texts that share characters where they stand agree on those.
-/

namespace CodeSpan.Text

variable {needle s a b : List Char} {c : Char}

theorem occurrencesFrom_skip (before : List Char) (h : ¬ needle <+: c :: s) :
    occurrencesFrom needle before 0 (c :: s) = occurrencesFrom needle (c :: before) 0 s := by
  have hnone : stripStart? needle (c :: s) = none := by
    rw [← startsWith_iff, startsWith] at h
    simpa using h
  rw [occurrencesFrom, hnone]

theorem occurrencesFrom_hit (before : List Char) (h : needle ++ b = c :: s) :
    ∃ rest, occurrencesFrom needle before 0 (c :: s) = ⟨before.reverse, b⟩ :: rest := by
  have hsome : stripStart? needle (c :: s) = some b := stripStart?_eq_some_iff.2 h.symm
  rw [occurrencesFrom, hsome]
  exact ⟨_, rfl⟩

theorem occurrencesFrom_eq_nil_iff (hne : needle ≠ []) (before : List Char) :
    occurrencesFrom needle before 0 s = [] ↔ ¬ needle <:+: s := by
  induction s generalizing before with
  | nil => simp [occurrencesFrom, hne]
  | cons c s ih =>
      by_cases hp : needle <+: c :: s
      · obtain ⟨b, hb⟩ := hp
        obtain ⟨rest, hrest⟩ := occurrencesFrom_hit before hb
        have hin : needle <:+: c :: s := List.IsPrefix.isInfix ⟨b, hb⟩
        simp [hrest, hin]
      · rw [occurrencesFrom_skip before hp, ih, List.infix_cons_iff]
        simp [hp]

theorem occurrences_eq_nil_iff (hne : needle ≠ []) : occurrences needle s = [] ↔ ¬ needle <:+: s :=
  occurrencesFrom_eq_nil_iff hne []

theorem firstOccurrence?_eq_none_iff (hne : needle ≠ []) :
    firstOccurrence? needle s = none ↔ ¬ needle <:+: s := by
  rw [firstOccurrence?, List.head?_eq_none_iff, occurrences_eq_nil_iff hne]

theorem head?_occurrencesFrom_append (before : List Char) (hc : c ∉ a) :
    (occurrencesFrom (c :: needle) before 0 (a ++ c :: needle ++ b)).head? =
      some ⟨before.reverse ++ a, b⟩ := by
  induction a generalizing before with
  | nil =>
      have happ : (c :: needle) ++ b = c :: (needle ++ b) := List.cons_append
      obtain ⟨rest, hrest⟩ := occurrencesFrom_hit before happ
      simp only [List.nil_append, List.append_nil, List.cons_append]
      rw [hrest]
      rfl
  | cons x a ih =>
      rw [List.mem_cons, not_or] at hc
      have hno : ¬ c :: needle <+: x :: (a ++ c :: needle ++ b) := by
        rintro ⟨rest, hrest⟩
        exact hc.1 (List.cons.inj hrest).1
      rw [List.cons_append, List.cons_append, occurrencesFrom_skip before hno,
        ih (x :: before) hc.2]
      simp

theorem firstOccurrence?_append (hc : c ∉ a) :
    firstOccurrence? (c :: needle) (a ++ c :: needle ++ b) = some ⟨a, b⟩ := by
  rw [firstOccurrence?, occurrences, head?_occurrencesFrom_append [] hc]
  rfl

theorem lastOccurrence?_eq_none_iff (hne : needle ≠ []) :
    lastOccurrence? needle s = none ↔ ¬ needle <:+: s := by
  induction s with
  | nil => simp [lastOccurrence?, hne]
  | cons c s ih =>
      rw [lastOccurrence?, List.infix_cons_iff, not_or, ← startsWith_iff, startsWith]
      cases hlast : lastOccurrence? needle s with
      | some o =>
          have hin : needle <:+: s := by
            by_contra hno
            rw [ih.2 hno] at hlast
            cases hlast
          simp [hin]
      | none => simp [ih.1 hlast]

theorem length_le_of_lastOccurrence? {o : Occurrence} (hne : needle ≠ [])
    (h : lastOccurrence? needle (a ++ needle ++ b) = some o) : a.length ≤ o.before.length := by
  induction a generalizing o with
  | nil => exact Nat.zero_le _
  | cons x a ih =>
      rw [List.cons_append, List.cons_append, lastOccurrence?] at h
      cases hlast : lastOccurrence? needle (a ++ needle ++ b) with
      | none => exact absurd ⟨a, b, rfl⟩ ((lastOccurrence?_eq_none_iff hne).1 hlast)
      | some o' =>
          rw [hlast] at h
          cases h
          exact Nat.succ_le_succ (ih hlast)

theorem eq_append_of_lastOccurrence? {o : Occurrence} (h : lastOccurrence? needle s = some o) :
    s = o.before ++ needle ++ o.after := by
  induction s generalizing o with
  | nil => cases h
  | cons c s ih =>
      rw [lastOccurrence?] at h
      cases hlast : lastOccurrence? needle s with
      | some o' =>
          rw [hlast] at h
          cases h
          exact congrArg (c :: ·) (ih hlast)
      | none =>
          rw [hlast] at h
          obtain ⟨after, hafter, rfl⟩ := Option.map_eq_some_iff.1 h
          exact stripStart?_eq_some_iff.1 hafter

/-- The needle stands behind `i` characters of the text, and behind no fewer. -/
structure FirstAt (needle s : List Char) (i : Nat) : Prop where
  here : needle <+: s.drop i
  not_before : ∀ j < i, ¬ needle <+: s.drop j

/-- The needle stands behind `i` characters of the text, and behind no more. -/
structure LastAt (needle s : List Char) (i : Nat) : Prop where
  here : needle <+: s.drop i
  not_after : ∀ j, i < j → ¬ needle <+: s.drop j

variable {i j : Nat}

theorem FirstAt.eq (hi : FirstAt needle s i) (hj : FirstAt needle s j) : i = j := by
  rcases Nat.lt_trichotomy i j with hlt | heq | hlt
  · exact absurd hi.here (hj.not_before i hlt)
  · exact heq
  · exact absurd hj.here (hi.not_before j hlt)

theorem LastAt.eq (hi : LastAt needle s i) (hj : LastAt needle s j) : i = j := by
  rcases Nat.lt_trichotomy i j with hlt | heq | hlt
  · exact absurd hj.here (hi.not_after j hlt)
  · exact heq
  · exact absurd hi.here (hj.not_after i hlt)

theorem FirstAt.isInfix (h : FirstAt needle s i) : needle <:+: s :=
  h.here.isInfix.trans (List.drop_suffix i s).isInfix

theorem LastAt.isInfix (h : LastAt needle s i) : needle <:+: s :=
  h.here.isInfix.trans (List.drop_suffix i s).isInfix

theorem firstAt_of_head?_occurrencesFrom {before : List Char} {o : Occurrence}
    (h : (occurrencesFrom needle before 0 s).head? = some o) :
    ∃ i, o.before.length = before.length + i ∧ FirstAt needle s i := by
  induction s generalizing before with
  | nil => simp [occurrencesFrom] at h
  | cons c s ih =>
      by_cases hp : needle <+: c :: s
      · obtain ⟨b, hb⟩ := hp
        obtain ⟨rest, hrest⟩ := occurrencesFrom_hit before hb
        rw [hrest] at h
        cases h
        exact ⟨0, by simp, ⟨b, hb⟩, fun j hj => absurd hj (Nat.not_lt_zero j)⟩
      · rw [occurrencesFrom_skip before hp] at h
        obtain ⟨i, hlen, hfirst⟩ := ih h
        refine ⟨i + 1, by rw [hlen, List.length_cons]; omega, hfirst.here, ?_⟩
        intro j hj
        cases j with
        | zero => exact hp
        | succ j => exact hfirst.not_before j (Nat.lt_of_succ_lt_succ hj)

theorem firstAt_of_firstOccurrence? {o : Occurrence} (h : firstOccurrence? needle s = some o) :
    FirstAt needle s o.before.length := by
  obtain ⟨i, hlen, hfirst⟩ := firstAt_of_head?_occurrencesFrom h
  rw [List.length_nil, Nat.zero_add] at hlen
  exact hlen ▸ hfirst

theorem lastAt_of_lastOccurrence? {o : Occurrence} (hne : needle ≠ [])
    (h : lastOccurrence? needle s = some o) : LastAt needle s o.before.length := by
  induction s generalizing o with
  | nil => cases h
  | cons c s ih =>
      rw [lastOccurrence?] at h
      cases hlast : lastOccurrence? needle s with
      | some o' =>
          rw [hlast] at h
          cases h
          have hrest := ih hlast
          refine ⟨hrest.here, ?_⟩
          intro j hj
          cases j with
          | zero => exact absurd hj (Nat.not_lt_zero _)
          | succ j => exact hrest.not_after j (Nat.lt_of_succ_lt_succ hj)
      | none =>
          rw [hlast] at h
          obtain ⟨after, hafter, rfl⟩ := Option.map_eq_some_iff.1 h
          refine ⟨⟨after, (stripStart?_eq_some_iff.1 hafter).symm⟩, ?_⟩
          intro j hj hp
          cases j with
          | zero => exact absurd hj (Nat.not_lt_zero _)
          | succ j =>
              have hin : needle <:+: s := hp.isInfix.trans (List.drop_suffix j s).isInfix
              exact (lastOccurrence?_eq_none_iff hne).1 hlast hin

/-- Where one text stands inside another that begins before it, the two agree. -/
theorem comparable_of_overlap {p q : List Char} (hp : p <+: s.drop i)
    (hq : q <+: s.drop (i + j)) : p.drop j <+: q ∨ q <+: p.drop j := by
  have hdrop := hp.drop j
  rw [List.drop_drop] at hdrop
  exact List.prefix_or_prefix_of_prefix hdrop hq

theorem length_le_of_mem_occurrencesFrom {before : List Char} {skip : Nat} {o : Occurrence}
    (h : o ∈ occurrencesFrom needle before skip s) : before.length + skip ≤ o.before.length := by
  induction s generalizing before skip with
  | nil => simp [occurrencesFrom] at h
  | cons c s ih =>
      cases skip with
      | succ skip =>
          have hle := ih h
          rw [List.length_cons] at hle
          omega
      | zero =>
          rw [occurrencesFrom] at h
          split at h
          · rcases List.mem_cons.1 h with rfl | hrest
            · simp
            · have hle := ih hrest
              rw [List.length_cons] at hle
              omega
          · have hle := ih h
            rw [List.length_cons] at hle
            omega

/-- Occurrences are listed in the order in which they stand. -/
theorem pairwise_occurrencesFrom (needle before : List Char) (skip : Nat) (s : List Char) :
    (occurrencesFrom needle before skip s).Pairwise fun a b =>
      a.before.length < b.before.length := by
  induction s generalizing before skip with
  | nil => exact .nil
  | cons c s ih =>
      cases skip with
      | succ skip => exact ih _ _
      | zero =>
          rw [occurrencesFrom]
          split
          · refine List.pairwise_cons.2 ⟨?_, ih _ _⟩
            intro o ho
            have hle := length_le_of_mem_occurrencesFrom ho
            rw [List.length_cons] at hle
            rw [List.length_reverse]
            omega
          · exact ih _ _

/-- Of the occurrences that pass a test, the first one found has the shortest text before it. -/
theorem before_prefix_of_find? {p : Occurrence → Bool} {o o' : Occurrence}
    (h : (occurrences needle s).find? p = some o) (hmem : o' ∈ occurrences needle s)
    (hp : p o' = true) : o.before <+: o'.before := by
  obtain ⟨-, earlier, later, hsplit, hnone⟩ := List.find?_eq_some_iff_append.1 h
  have hfirst : s = o.before ++ (needle ++ o.after) := by
    rw [← List.append_assoc]
    exact eq_append_of_mem_occurrences (List.mem_of_find?_eq_some h)
  have hother : s = o'.before ++ (needle ++ o'.after) := by
    rw [← List.append_assoc]
    exact eq_append_of_mem_occurrences hmem
  have hle : o.before.length ≤ o'.before.length := by
    have hsorted := pairwise_occurrencesFrom needle [] 0 s
    change (occurrences needle s).Pairwise _ at hsorted
    rw [hsplit] at hmem hsorted
    rcases List.mem_append.1 hmem with hearly | hlate
    · have hno := hnone o' hearly
      rw [hp] at hno
      cases hno
    · rcases List.mem_cons.1 hlate with rfl | hlate
      · exact Nat.le_refl _
      · have htail := (List.pairwise_append.1 hsorted).2.1
        exact Nat.le_of_lt ((List.pairwise_cons.1 htail).1 o' hlate)
  exact List.prefix_of_prefix_length_le (hfirst ▸ List.prefix_append _ _)
    (hother ▸ List.prefix_append _ _) hle

/-- A text that no proper end of itself begins, so that it never overlaps itself. -/
def Unbordered (needle : List Char) : Prop :=
  ∀ k, 0 < k → k < needle.length → ¬ needle.drop k <+: needle

theorem Unbordered.length_le (hn : Unbordered needle) (hne : needle ≠ []) (hi : 0 < i)
    (hhere : needle <+: s) (hthere : needle <+: s.drop i) : needle.length ≤ i := by
  by_contra! hlt
  have hneedle := List.length_pos_of_ne_nil hne
  have hhere : needle <+: s.drop 0 := hhere
  rw [← Nat.zero_add i] at hthere
  rcases comparable_of_overlap hhere hthere with hborder | hborder
  · exact hn i hi hlt hborder
  · have hlen := hborder.length_le
    rw [List.length_drop] at hlen
    omega

end CodeSpan.Text
