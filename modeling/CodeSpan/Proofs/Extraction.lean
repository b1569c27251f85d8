import CodeSpan.Dialect.Builtin
import CodeSpan.Proofs.Scan
import CodeSpan.Proofs.Totals
import Mathlib.Order.Lattice.Nat

/-!
# Extraction by running totals

The totals of a block are taken over the lines from its start line on, scanned afresh and
counted with the rules that the start line selects. A block closes on the first line where they
balance, unless a window was used up on an earlier line, and this decides every outcome of an
extraction. A block that never closes gives the window of the dialect, stops the program where
that has no end, or fails.
-/

namespace CodeSpan

def blockClasses (t : Source) (start : Nat) (d : Dialect) : List LineClass :=
  d.comments.classes (t.lines.drop start)

/-- The rules that the start line selects and the openers before it. -/
def startRules (t : Source) (start : Nat) (d : Dialect) : BlockRules × Nat :=
  d.selectRules ((blockClasses t start d).headD .comment)

/-- The openers and closers on the lines `start` to `start + k`, with those before them. -/
def totals (t : Source) (start : Nat) (d : Dialect) (k : Nat) : Tally :=
  Tally.after ⟨(startRules t start d).2, 0⟩ (startRules t start d).1
    ((blockClasses t start d).take (k + 1))

/-- The block closes `k` lines after its start line. -/
structure ClosesAt (t : Source) (start : Nat) (d : Dialect) (k : Nat) : Prop where
  inRange : start + k < t.size
  balanced : (totals t start d k).Balanced
  goesOn : ∀ j < k, d.fallback.GoesOn j (totals t start d j)

variable {t u : Source} {start first k m : Nat} {d : Dialect}

@[simp] theorem length_blockClasses (t : Source) (start : Nat) (d : Dialect) :
    (blockClasses t start d).length = t.size - start := by
  simp [blockClasses, Source.size]

theorem opened_mono (h : k ≤ m) : (totals t start d k).opened ≤ (totals t start d m).opened := by
  have hsplit : m + 1 = (k + 1) + (m - k) := by omega
  have hlater : totals t start d m = (totals t start d k).after (startRules t start d).1
      (((blockClasses t start d).drop (k + 1)).take (m - k)) := by
    rw [totals, totals, hsplit, List.take_add, Tally.after_append]
  rw [hlater]
  exact Tally.opened_le_after _ _ _

theorem totals_congr
    (h : (t.lines.drop start).take (k + 1) = (u.lines.drop first).take (k + 1)) :
    totals t start d k = totals u first d k := by
  have hclasses : (blockClasses t start d).take (k + 1) =
      (blockClasses u first d).take (k + 1) := by
    rw [blockClasses, blockClasses, CommentSyntax.classes_take, h, CommentSyntax.classes_take]
  have hhead : ∀ ls : List LineClass, ls.headD .comment = (ls.take (k + 1)).headD .comment := by
    intro ls
    cases ls <;> rfl
  rw [totals, totals, startRules, startRules, hhead, hhead (blockClasses u first d), hclasses]

theorem extract_of_size_le (h : t.size ≤ start) :
    extract t start d = some (.error (.startOutOfRange start t.size)) := by
  have hnil : t.lines.drop start = [] := List.drop_eq_nil_of_le h
  simp [extract, hnil, CommentSyntax.classes, CommentSyntax.scan]

theorem extract_eq_count (h : start < t.size) :
    extract t start d =
      match countBlock (startRules t start d).1 d.fallback 0 ⟨(startRules t start d).2, 0⟩
          (blockClasses t start d), d.fallback with
      | .balanced distance, _ => some (.ok (.ofLines t start (start + distance) .balanced))
      | .unclosed _, .window size => (BlockSpan.window t start size).map .ok
      | .unclosed n, .fail => some (.error (.unbalanced start n.opened n.closed)) := by
  cases hc : blockClasses t start d with
  | nil =>
      have hlen := length_blockClasses t start d
      rw [hc] at hlen
      simp only [List.length_nil] at hlen
      omega
  | cons line lines =>
      rw [startRules, hc]
      rw [blockClasses] at hc
      rw [extract, hc]
      rfl

theorem extract_of_closesAt (h : ClosesAt t start d k) :
    extract t start d = some (.ok (.ofLines t start (start + k) .balanced)) := by
  have hk : k < (blockClasses t start d).length := by
    have := h.inRange
    rw [length_blockClasses]
    omega
  have hcount : countBlock (startRules t start d).1 d.fallback 0 ⟨(startRules t start d).2, 0⟩
      (blockClasses t start d) = .balanced (0 + k) := by
    apply countBlock_of_balanced hk h.balanced
    intro j hj
    rw [Nat.zero_add]
    exact h.goesOn j hj
  have hr := h.inRange
  rw [extract_eq_count (by omega), hcount, Nat.zero_add]

theorem exists_unclosed (hs : start < t.size) (h : ∀ k, ¬ ClosesAt t start d k) :
    ∃ m, countBlock (startRules t start d).1 d.fallback 0 ⟨(startRules t start d).2, 0⟩
        (blockClasses t start d) = .unclosed m ∧
      (d.fallback = .fail → m = totals t start d (t.size - 1 - start)) := by
  have hall : totals t start d (t.size - 1 - start) =
      Tally.after ⟨(startRules t start d).2, 0⟩ (startRules t start d).1
        (blockClasses t start d) := by
    rw [totals, List.take_of_length_le]
    rw [length_blockClasses]
    omega
  rw [hall]
  apply countBlock_of_not_balanced
  intro k hk hb
  rw [length_blockClasses] at hk
  by_contra! hon
  refine h k ⟨by omega, hb, ?_⟩
  intro j hj
  have := hon j hj
  rwa [Nat.zero_add] at this

theorem BlockSpan.window_eq_some {size : Nat} (hs : start < t.size) (hsize : size ≠ 0)
    (hfits : start + size < UInt64.size) :
    window t start size =
      some (.ofLines t start (min (start + size - 1) (t.size - 1)) .window) := by
  have hbehind : 1 ≤ start + size := by omega
  have hlast : 1 ≤ t.size := by omega
  simp [window, Word.plus, Word.minus, hfits, hbehind, hlast]

theorem BlockSpan.window_eq_none {size : Nat} (h : UInt64.size ≤ start + size) :
    window t start size = none := by
  simp [window, Word.plus, Nat.not_lt.2 h]

theorem extract_of_window {size : Nat} (hs : start < t.size) (hf : d.fallback = .window size)
    (hfits : start + size < UInt64.size) (h : ∀ k, ¬ ClosesAt t start d k) :
    extract t start d =
      some (.ok (.ofLines t start (min (start + size - 1) (t.size - 1)) .window)) := by
  have hsize : size ≠ 0 := fun hz => d.fallback_ne (hz ▸ hf)
  obtain ⟨m, hm, -⟩ := exists_unclosed hs h
  rw [extract_eq_count hs, hm, hf]
  dsimp only
  rw [BlockSpan.window_eq_some hs hsize hfits, Option.map_some]

/-- The end of a window that is no word stops the program, however short the text. -/
theorem extract_of_overflow {size : Nat} (hs : start < t.size) (hf : d.fallback = .window size)
    (hover : UInt64.size ≤ start + size) (h : ∀ k, ¬ ClosesAt t start d k) :
    extract t start d = none := by
  obtain ⟨m, hm, -⟩ := exists_unclosed hs h
  rw [extract_eq_count hs, hm, hf]
  dsimp only
  rw [BlockSpan.window_eq_none hover, Option.map_none]

theorem extract_of_fail (hs : start < t.size) (hf : d.fallback = .fail)
    (h : ∀ k, ¬ ClosesAt t start d k) :
    extract t start d =
      some (.error (.unbalanced start (totals t start d (t.size - 1 - start)).opened
        (totals t start d (t.size - 1 - start)).closed)) := by
  obtain ⟨m, hm, htot⟩ := exists_unclosed hs h
  rw [extract_eq_count hs, hm, ← htot hf, hf]

/-- The ways in which an extraction from a line of the text ends. -/
inductive Extraction (t : Source) (start : Nat) (d : Dialect) :
    Option (Except ExtractError BlockSpan) → Prop where
  | balanced {k : Nat} (closes : ClosesAt t start d k) :
      Extraction t start d (some (.ok (.ofLines t start (start + k) .balanced)))
  | window {size : Nat} (never : ∀ k, ¬ ClosesAt t start d k) (fallback : d.fallback = .window size)
      (fits : start + size < UInt64.size) :
      Extraction t start d
        (some (.ok (.ofLines t start (min (start + size - 1) (t.size - 1)) .window)))
  | stopped {size : Nat} (never : ∀ k, ¬ ClosesAt t start d k)
      (fallback : d.fallback = .window size) (overflow : UInt64.size ≤ start + size) :
      Extraction t start d none
  | unbalanced (never : ∀ k, ¬ ClosesAt t start d k) (fallback : d.fallback = .fail) :
      Extraction t start d
        (some (.error (.unbalanced start (totals t start d (t.size - 1 - start)).opened
          (totals t start d (t.size - 1 - start)).closed)))

theorem extraction (hs : start < t.size) : Extraction t start d (extract t start d) := by
  by_cases hc : ∃ k, ClosesAt t start d k
  · obtain ⟨k, hk⟩ := hc
    rw [extract_of_closesAt hk]
    exact .balanced hk
  · have hnever : ∀ k, ¬ ClosesAt t start d k := fun k hk => hc ⟨k, hk⟩
    cases hf : d.fallback with
    | window size =>
        rcases Nat.lt_or_ge (start + size) UInt64.size with hfits | hover
        · rw [extract_of_window hs hf hfits hnever]
          exact .window hnever hf hfits
        · rw [extract_of_overflow hs hf hover hnever]
          exact .stopped hnever hf hover
    | fail =>
        rw [extract_of_fail hs hf hnever]
        exact .unbalanced hnever hf

theorem lt_size_of_extract {span : BlockSpan} (h : extract t start d = some (.ok span)) :
    start < t.size := by
  by_contra! hge
  rw [extract_of_size_le hge] at h
  cases h

theorem closesAt_of_extract {span : BlockSpan} (h : extract t start d = some (.ok span))
    (hkind : span.kind = .balanced) :
    ∃ k, ClosesAt t start d k ∧ span = .ofLines t start (start + k) .balanced := by
  have hx := extraction (d := d) (lt_size_of_extract h)
  rw [h] at hx
  cases hx with
  | balanced hk => exact ⟨_, hk, rfl⟩
  | window => cases hkind

/-- The program stops exactly at a block that never closes and whose window has an end that is no
word. -/
theorem extract_eq_none_iff :
    extract t start d = none ↔ start < t.size ∧ (∀ k, ¬ ClosesAt t start d k) ∧
      ∃ size, d.fallback = .window size ∧ UInt64.size ≤ start + size := by
  constructor
  · intro h
    have hs : start < t.size := by
      by_contra! hge
      rw [extract_of_size_le hge] at h
      cases h
    have hx := extraction (d := d) hs
    rw [h] at hx
    cases hx with
    | stopped hnever hf hover => exact ⟨hs, hnever, _, hf, hover⟩
  · rintro ⟨hs, hnever, size, hf, hover⟩
    exact extract_of_overflow hs hf hover hnever

theorem extract_eq_startOutOfRange_iff {line size : Nat} :
    extract t start d = some (.error (.startOutOfRange line size)) ↔
      t.size ≤ start ∧ line = start ∧ size = t.size := by
  constructor
  · intro h
    rcases Nat.lt_or_ge start t.size with hs | hs
    · have hx := extraction (d := d) hs
      rw [h] at hx
      cases hx
    · rw [extract_of_size_le hs] at h
      cases h
      exact ⟨hs, rfl, rfl⟩
  · rintro ⟨hs, rfl, rfl⟩
    exact extract_of_size_le hs

theorem ClosesAt.congr (hk : ClosesAt t start d k) (hrange : first + k < u.size)
    (h : ∀ j ≤ k, totals u first d j = totals t start d j) : ClosesAt u first d k := by
  refine ⟨hrange, (h k (Nat.le_refl k)).symm ▸ hk.balanced, ?_⟩
  intro j hj
  rw [h j (Nat.le_of_lt hj)]
  exact hk.goesOn j hj

/-- Unless a window is used up, the block closes at the least distance where the totals
balance. -/
theorem exists_closesAt_of_unexhausted
    (hx : ∀ k, d.fallback.exhausted k (totals t start d k) = false)
    (h : ∃ k, start + k < t.size ∧ (totals t start d k).Balanced) :
    ∃ k, ClosesAt t start d k := by
  classical
  refine ⟨Nat.find h, (Nat.find_spec h).1, (Nat.find_spec h).2, fun j hj => ⟨?_, hx j⟩⟩
  intro hb
  have hrange := (Nat.find_spec h).1
  exact Nat.find_min h hj ⟨by omega, hb⟩

theorem closesAt_of_least (hf : d.fallback = .fail) (hk : start + k < t.size)
    (hb : (totals t start d k).Balanced) (hleast : ∀ j < k, ¬ (totals t start d j).Balanced) :
    ClosesAt t start d k :=
  ⟨hk, hb, fun j hj => ⟨hleast j hj, by rw [hf, Fallback.exhausted_fail]⟩⟩

theorem exists_closesAt (hf : d.fallback = .fail)
    (h : ∃ k, start + k < t.size ∧ (totals t start d k).Balanced) :
    ∃ k, ClosesAt t start d k :=
  exists_closesAt_of_unexhausted (fun k => by rw [hf, Fallback.exhausted_fail]) h

theorem join_add (t : Source) (start k : Nat) :
    t.join start (start + k) = List.intercalate ['\n'] ((t.lines.drop start).take (k + 1)) := by
  rw [Source.join, List.drop_take, show start + k + 1 - start = k + 1 by omega]

/-- Without a window an extraction takes the lines up to the least distance at which the totals
balance, and fails with the totals over all lines if there is none. -/
theorem extract_least_balanced (t : Source) (start : Nat) (d : Dialect)
    (hf : d.fallback = .fail) :
    (∀ k, start + k < t.size → (totals t start d k).Balanced →
      (∀ j < k, ¬ (totals t start d j).Balanced) →
      extract t start d = some (.ok
        ⟨start, start + k, List.intercalate ['\n'] ((t.lines.drop start).take (k + 1)),
          .balanced⟩)) ∧
    ((∃ span, extract t start d = some (.ok span)) ↔
      ∃ k, start + k < t.size ∧ (totals t start d k).Balanced) ∧
    (start < t.size → (∀ k, start + k < t.size → ¬ (totals t start d k).Balanced) →
      extract t start d = some (.error (.unbalanced start
        (totals t start d (t.size - 1 - start)).opened
        (totals t start d (t.size - 1 - start)).closed))) ∧
    (∀ line size, extract t start d = some (.error (.startOutOfRange line size)) ↔
      t.size ≤ start ∧ line = start ∧ size = t.size) := by
  have hnever : start < t.size → (∀ k, start + k < t.size → ¬ (totals t start d k).Balanced) →
      extract t start d = some (.error (.unbalanced start
        (totals t start d (t.size - 1 - start)).opened
        (totals t start d (t.size - 1 - start)).closed)) := fun hs h =>
    extract_of_fail hs hf fun k hc => h k hc.inRange hc.balanced
  refine ⟨?_, ⟨?_, ?_⟩, hnever, fun _ _ => extract_eq_startOutOfRange_iff⟩
  · intro k hk hb hmin
    rw [extract_of_closesAt (closesAt_of_least hf hk hb hmin), BlockSpan.ofLines, join_add]
  · rintro ⟨span, hspan⟩
    by_contra! h
    rcases Nat.lt_or_ge start t.size with hs | hs
    · rw [hnever hs h] at hspan
      cases hspan
    · rw [extract_of_size_le hs] at hspan
      cases hspan
  · intro h
    obtain ⟨k, hk⟩ := exists_closesAt hf h
    exact ⟨_, extract_of_closesAt hk⟩

theorem extract_least_balanced_keyword :
    Dialect.keyword.fallback = .fail ∧
      extract ⟨["def a", "# end", "end", "end"].map String.toList⟩ 0 Dialect.keyword =
        some (.ok ⟨0, 2, "def a\n# end\nend".toList, .balanced⟩) := by
  refine ⟨rfl, ?_⟩
  exact (extract_least_balanced _ 0 Dialect.keyword rfl).1 2 (by decide) (by decide +kernel)
    (by decide +kernel)

end CodeSpan
