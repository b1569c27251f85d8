import CodeSpan.Locate.Token
import CodeSpan.Proofs.Occurrence

/-!
# Places that a search reaches

A search for a text goes on behind each place that it finds. So it reaches a place of the text
exactly when no place reached before overlaps it, and it lists just these places. A text that
never overlaps itself is reached wherever it stands.
-/

namespace CodeSpan

namespace Text

variable {needle s before t : List Char} {o : Occurrence} {i n ahead : Nat}

/-- The needle stands behind `i` characters of the text, and no place reached before overlaps
it. -/
def Reached (needle s : List Char) (i : Nat) : Prop :=
  needle <+: s.drop i ∧ ∀ j, (_ : j < i) → Reached needle s j → j + needle.length ≤ i
termination_by i

theorem reached_iff : Reached needle s i ↔
    needle <+: s.drop i ∧ ∀ j < i, Reached needle s j → j + needle.length ≤ i := by
  rw [Reached]

theorem Reached.here (h : Reached needle s i) : needle <+: s.drop i :=
  (reached_iff.1 h).1

/-- A place is missed only if a reached one before overlaps it. -/
theorem reached_or_overlapped (h : needle <+: s.drop i) :
    Reached needle s i ∨ ∃ j < i, Reached needle s j ∧ i < j + needle.length := by
  by_contra! hno
  exact hno.1 (reached_iff.2 ⟨h, hno.2⟩)

theorem Unbordered.reached (hn : Unbordered needle) (hne : needle ≠ [])
    (h : needle <+: s.drop i) : Reached needle s i := by
  rcases reached_or_overlapped h with hreached | ⟨j, hj, hreached, hlt⟩
  · exact hreached
  · have hthere : needle <+: (s.drop j).drop (i - j) := by
      rwa [List.drop_drop, Nat.add_sub_cancel' (Nat.le_of_lt hj)]
    have hapart := hn.length_le hne (Nat.sub_pos_of_lt hj) hreached.here hthere
    omega

def occurrenceAt (needle s : List Char) (i : Nat) : Occurrence :=
  ⟨s.take i, s.drop (i + needle.length)⟩

theorem length_before_occurrenceAt (hne : needle ≠ []) (h : needle <+: s.drop i) :
    (occurrenceAt needle s i).before.length = i := by
  have hpos := List.length_pos_of_ne_nil hne
  have hlen := h.length_le
  rw [List.length_drop] at hlen
  rw [occurrenceAt, List.length_take]
  omega

theorem eq_occurrenceAt (h : s = o.before ++ needle ++ o.after) :
    o = occurrenceAt needle s o.before.length := by
  have htake : s.take o.before.length = o.before := by
    rw [h, List.append_assoc, List.take_left]
  have hdrop : s.drop (o.before.length + needle.length) = o.after := by
    rw [h, ← List.length_append, List.drop_left]
  rw [occurrenceAt, htake, hdrop]

theorem eq_append_occurrenceAt (h : needle <+: s.drop i) :
    s = (occurrenceAt needle s i).before ++ needle ++ (occurrenceAt needle s i).after := by
  obtain ⟨rest, hrest⟩ := h
  have hafter : s.drop (i + needle.length) = rest := by
    rw [← List.drop_drop, ← hrest, List.drop_left]
  change s = s.take i ++ needle ++ s.drop (i + needle.length)
  rw [hafter, List.append_assoc, hrest, List.take_append_drop]

/-- A search has passed `n` characters of a text, and the place it reached last ends `ahead`
characters further on, or not behind these at all. -/
structure Passed (needle s : List Char) (n ahead : Nat) : Prop where
  stop_le : ∀ j < n, Reached needle s j → j + needle.length ≤ n + ahead
  exists_stop : 0 < ahead → ∃ j < n, Reached needle s j ∧ j + needle.length = n + ahead

namespace Passed

theorem start (needle s : List Char) : Passed needle s 0 0 :=
  ⟨fun j hj => absurd hj (Nat.not_lt_zero j), fun h => absurd h (Nat.lt_irrefl 0)⟩

theorem skip (h : Passed needle s n (ahead + 1)) :
    ¬ Reached needle s n ∧ Passed needle s (n + 1) ahead := by
  obtain ⟨j, hj, hreached, hstop⟩ := h.exists_stop (Nat.succ_pos ahead)
  have hno : ¬ Reached needle s n := by
    intro hn
    have hle := (reached_iff.1 hn).2 j hj hreached
    omega
  refine ⟨hno, fun k hk hk' => ?_, fun _ => ⟨j, by omega, hreached, by omega⟩⟩
  have hne : k ≠ n := fun heq => hno (heq ▸ hk')
  have hle := h.stop_le k (by omega) hk'
  omega

theorem hit (h : Passed needle s n 0) (hne : needle ≠ []) (hhere : needle <+: s.drop n) :
    Reached needle s n ∧ Passed needle s (n + 1) (needle.length - 1) := by
  have hpos := List.length_pos_of_ne_nil hne
  have hreached : Reached needle s n := reached_iff.2 ⟨hhere, h.stop_le⟩
  refine ⟨hreached, fun k hk hk' => ?_, fun _ => ⟨n, Nat.lt_succ_self n, hreached, by omega⟩⟩
  rcases Nat.lt_succ_iff_lt_or_eq.1 hk with hlt | rfl
  · have hle := h.stop_le k hlt hk'
    omega
  · omega

theorem miss (h : Passed needle s n 0) (hno : ¬ needle <+: s.drop n) :
    ¬ Reached needle s n ∧ Passed needle s (n + 1) 0 := by
  have hno' : ¬ Reached needle s n := fun hn => hno hn.here
  refine ⟨hno', fun k hk hk' => ?_, fun h => absurd h (Nat.lt_irrefl 0)⟩
  rcases Nat.lt_succ_iff_lt_or_eq.1 hk with hlt | rfl
  · have hle := h.stop_le k hlt hk'
    omega
  · exact absurd hk' hno'

end Passed

theorem succ_le_and_reached_iff (hno : ¬ Reached needle s n) :
    n + 1 ≤ i ∧ Reached needle s i ↔ n ≤ i ∧ Reached needle s i := by
  constructor
  · rintro ⟨hle, hi⟩
    exact ⟨by omega, hi⟩
  · rintro ⟨hle, hi⟩
    have hne : n ≠ i := fun heq => hno (heq ▸ hi)
    exact ⟨by omega, hi⟩

/-- What a search still lists are the places reached from where it is on. -/
theorem mem_occurrencesFrom_iff (hne : needle ≠ []) (ht : before.reverse ++ s = t)
    (h : Passed needle t before.length ahead) :
    o ∈ occurrencesFrom needle before ahead s ↔ t = o.before ++ needle ++ o.after ∧
      before.length ≤ o.before.length ∧ Reached needle t o.before.length := by
  -- `Passed` is kept by every step: past a hit, past a miss and within the last hit.
  induction s generalizing before ahead with
  | nil =>
      have hpos := List.length_pos_of_ne_nil hne
      rw [occurrencesFrom]
      refine iff_of_false List.not_mem_nil ?_
      rintro ⟨happ, hle, -⟩
      have hlen := congrArg List.length (ht.trans happ)
      simp only [List.append_nil, List.length_reverse, List.length_append] at hlen
      omega
  | cons c s ih =>
      have ht' : (c :: before).reverse ++ s = t := by
        rw [← ht]
        simp
      have hdrop : t.drop before.length = c :: s := by
        rw [← ht, ← List.length_reverse, List.drop_left]
      cases ahead with
      | succ ahead =>
          obtain ⟨hno, hpassed⟩ := h.skip
          rw [occurrencesFrom, ih ht' hpassed, List.length_cons, succ_le_and_reached_iff hno]
      | zero =>
          by_cases hp : needle <+: c :: s
          · obtain ⟨hreached, hpassed⟩ := h.hit hne (hdrop ▸ hp)
            obtain ⟨after, hafter⟩ := hp
            have happ : t = before.reverse ++ needle ++ after := by
              rw [List.append_assoc, hafter, ht]
            rw [occurrencesFrom, stripStart?_eq_some_iff.2 hafter.symm, List.mem_cons,
              ih ht' hpassed, List.length_cons]
            constructor
            · rintro (rfl | ⟨ho, hle, hi⟩)
              · refine ⟨happ, ?_, ?_⟩
                · rw [List.length_reverse]
                · rwa [List.length_reverse]
              · exact ⟨ho, by omega, hi⟩
            · -- Of all the occurrences here and later, just one begins here.
              rintro ⟨ho, hle, hi⟩
              by_cases heq : before.length = o.before.length
              · left
                rw [eq_occurrenceAt ho, ← heq, ← List.length_reverse]
                exact (eq_occurrenceAt (o := ⟨before.reverse, after⟩) happ).symm
              · exact .inr ⟨ho, by omega, hi⟩
          · obtain ⟨hno, hpassed⟩ := h.miss (hdrop ▸ hp)
            rw [occurrencesFrom_skip before hp, ih ht' hpassed, List.length_cons,
              succ_le_and_reached_iff hno]

theorem mem_occurrences_iff (hne : needle ≠ []) :
    o ∈ occurrences needle s ↔ ∃ i, Reached needle s i ∧ o = occurrenceAt needle s i := by
  have ht : ([] : List Char).reverse ++ s = s := rfl
  rw [occurrences, mem_occurrencesFrom_iff hne ht (Passed.start needle s)]
  constructor
  · rintro ⟨happ, -, hi⟩
    exact ⟨_, hi, eq_occurrenceAt happ⟩
  · rintro ⟨i, hi, rfl⟩
    refine ⟨eq_append_occurrenceAt hi.here, Nat.zero_le _, ?_⟩
    rwa [length_before_occurrenceAt hne hi.here]

theorem Unbordered.mem_occurrences (hn : Unbordered needle) (hne : needle ≠ []) {a b : List Char} :
    ⟨a, b⟩ ∈ occurrences needle (a ++ needle ++ b) := by
  have hhere : needle <+: (a ++ needle ++ b).drop a.length := by
    rw [List.append_assoc, List.drop_left]
    exact List.prefix_append _ _
  exact (mem_occurrences_iff hne).2 ⟨a.length, hn.reached hne hhere, eq_occurrenceAt rfl⟩

end Text

/-- The search for a text lists the places it reaches that are not glued to their neighbours. -/
theorem mem_boundedMatches_iff {needle s : List Char} {r : ByteRange} (hne : needle ≠ []) :
    r ∈ boundedMatches needle s ↔ ∃ i, Text.Reached needle s i ∧
      isBounded needle (Text.occurrenceAt needle s i) = true ∧
      r = .ofOccurrence needle (Text.occurrenceAt needle s i) := by
  simp only [boundedMatches, List.mem_map, List.mem_filter, Text.mem_occurrences_iff hne]
  constructor
  · rintro ⟨_, ⟨⟨i, hi, rfl⟩, hbounded⟩, rfl⟩
    exact ⟨i, hi, hbounded, rfl⟩
  · rintro ⟨i, hi, hbounded, rfl⟩
    exact ⟨_, ⟨⟨i, hi, rfl⟩, hbounded⟩, rfl⟩

end CodeSpan
