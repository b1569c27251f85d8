import CodeSpan.Proofs.Extraction
import CodeSpan.Proofs.Stock

/-!
# Windows against failing

The fallback of a dialect takes no part in counting. A dialect with a window closes a block
where the same dialect without one does, unless the window was used up before anything was
opened, and in place of every failure it gives the window, or stops if that has no end. A larger
window therefore keeps every block that a smaller one finds.
-/

namespace CodeSpan

variable {t : Source} {start k n m : Nat} {d e failing windowed : Dialect} {f : Fallback}

theorem totals_withFallback (h : d.withFallback f = .ok e) :
    totals t start e k = totals t start d k := by
  obtain ⟨-, rfl⟩ := Dialect.withFallback_eq_ok_iff.1 h
  rfl

theorem window_ne_zero (h : d.withFallback (.window n) = .ok e) : n ≠ 0 := by
  obtain ⟨hne, -⟩ := Dialect.withFallback_eq_ok_iff.1 h
  exact fun hn => hne (congrArg _ hn)

theorem Fallback.exhausted_window_iff {distance : Nat} {tally : Tally} :
    (Fallback.window n).exhausted distance tally = true ↔ tally.opened = 0 ∧ n ≤ distance + 1 := by
  simp [exhausted]

theorem opened_pos_of_le (h : k ≤ m) (hpos : 0 < (totals t start d k).opened) :
    0 < (totals t start d m).opened :=
  Nat.lt_of_lt_of_le hpos (opened_mono h)

section Compare

variable (hf : d.withFallback .fail = .ok failing)

include hf

theorem window_lt_of_unopened (h : ClosesAt t start failing k)
    (hzero : (totals t start d (min (start + n - 1) (t.size - 1) - start)).opened = 0) :
    start + n - 1 < start + k := by
  have hrange := h.inRange
  have hb := h.balanced.2
  rw [totals_withFallback hf] at hb
  by_contra! hle
  have hin : k ≤ min (start + n - 1) (t.size - 1) - start := by omega
  have hpos := opened_pos_of_le hin (Nat.pos_of_ne_zero hb)
  omega

variable (hw : d.withFallback (.window n) = .ok windowed)

include hw

/-- A window keeps the closing lines of a block except those behind a window used up. -/
theorem closesAt_windowed_iff :
    ClosesAt t start windowed k ↔
      ClosesAt t start failing k ∧ (n ≤ k → 0 < (totals t start d (n - 1)).opened) := by
  have hn := window_ne_zero hw
  constructor
  · intro h
    refine ⟨⟨h.inRange, ?_, ?_⟩, ?_⟩
    · have hb := h.balanced
      rwa [totals_withFallback hw, ← totals_withFallback hf] at hb
    · intro j hj
      have hon := (h.goesOn j hj).1
      rw [totals_withFallback hw, ← totals_withFallback hf] at hon
      exact ⟨hon, by rw [Dialect.fallback_withFallback hf, Fallback.exhausted_fail]⟩
    · intro hle
      have hon := (h.goesOn (n - 1) (by omega)).2
      rw [totals_withFallback hw, Dialect.fallback_withFallback hw, Bool.eq_false_iff, ne_eq,
        Fallback.exhausted_window_iff] at hon
      omega
  · rintro ⟨h, hopen⟩
    refine ⟨h.inRange, ?_, ?_⟩
    · have hb := h.balanced
      rwa [totals_withFallback hf, ← totals_withFallback hw] at hb
    · intro j hj
      have hon := (h.goesOn j hj).1
      rw [totals_withFallback hf, ← totals_withFallback hw] at hon
      refine ⟨hon, ?_⟩
      rw [totals_withFallback hw, Dialect.fallback_withFallback hw, Bool.eq_false_iff, ne_eq,
        Fallback.exhausted_window_iff]
      rintro ⟨hzero, hlate⟩
      -- Once the window is used up, an opener must stand on its lines.
      have hin : n - 1 ≤ j := by omega
      have hpos := opened_pos_of_le hin (hopen (by omega))
      omega

/-- Whether anything is opened within the window, or by the end of a shorter text, decides
whether a block that closes is found. -/
theorem closesAt_windowed_of_closesAt (h : ClosesAt t start failing k) :
    ClosesAt t start windowed k ↔
      0 < (totals t start d (min (start + n - 1) (t.size - 1) - start)).opened := by
  have hn := window_ne_zero hw
  have hrange := h.inRange
  have hb := h.balanced.2
  rw [totals_withFallback hf] at hb
  rw [closesAt_windowed_iff hf hw]
  by_cases hle : n ≤ k
  · have hlast : min (start + n - 1) (t.size - 1) - start = n - 1 := by omega
    rw [hlast]
    exact ⟨fun hk => hk.2 hle, fun hpos => ⟨h, fun _ => hpos⟩⟩
  · have hin : k ≤ min (start + n - 1) (t.size - 1) - start := by omega
    have hpos := opened_pos_of_le hin (Nat.pos_of_ne_zero hb)
    exact ⟨fun _ => hpos, fun _ => ⟨h, fun hlate => absurd hlate hle⟩⟩

theorem not_closesAt_windowed_of_unopened
    (hzero : (totals t start d (min (start + n - 1) (t.size - 1) - start)).opened = 0) :
    ¬ ClosesAt t start windowed k := by
  intro hj
  have hj' := ((closesAt_windowed_iff hf hw).1 hj).1
  have hopen := (closesAt_windowed_of_closesAt hf hw hj').1 hj
  omega

end Compare

theorem extract_windowed_of_never (hw : d.withFallback (.window n) = .ok windowed)
    (hs : start < t.size) (hnever : ∀ k, ¬ ClosesAt t start windowed k) :
    extract t start windowed =
      if start + n < UInt64.size then
        some (.ok (.ofLines t start (min (start + n - 1) (t.size - 1)) .window))
      else none := by
  split_ifs with hfits
  · exact extract_of_window hs (Dialect.fallback_withFallback hw) hfits hnever
  · exact extract_of_overflow hs (Dialect.fallback_withFallback hw) (Nat.not_lt.1 hfits) hnever

theorem exists_failing (d : Dialect) : ∃ failing, d.withFallback .fail = .ok failing :=
  ⟨_, Dialect.withFallback_eq_ok_iff.2 ⟨by simp, rfl⟩⟩

theorem extract_windowed_ne_error (hw : d.withFallback (.window n) = .ok windowed)
    (hs : start < t.size) (e : ExtractError) : extract t start windowed ≠ some (.error e) := by
  intro he
  have hx := extraction (d := windowed) hs
  rw [he] at hx
  cases hx with
  | unbalanced _ hfail =>
      rw [Dialect.fallback_withFallback hw] at hfail
      cases hfail

theorem ClosesAt.widen {widened : Dialect} (hw : d.withFallback (.window n) = .ok windowed)
    (hm : d.withFallback (.window m) = .ok widened) (hle : n ≤ m)
    (h : ClosesAt t start windowed k) : ClosesAt t start widened k := by
  obtain ⟨failing, hf⟩ := exists_failing d
  obtain ⟨hfail, hopen⟩ := (closesAt_windowed_iff hf hw).1 h
  refine (closesAt_windowed_iff hf hm).2 ⟨hfail, fun hmk => ?_⟩
  exact opened_pos_of_le (by omega) (hopen (by omega))

theorem extract_widen {widened : Dialect} {span : BlockSpan}
    (hw : d.withFallback (.window n) = .ok windowed)
    (hm : d.withFallback (.window m) = .ok widened) (hle : n ≤ m)
    (h : extract t start windowed = some (.ok span)) (hkind : span.kind = .balanced) :
    extract t start widened = some (.ok span) := by
  obtain ⟨k, hk, rfl⟩ := closesAt_of_extract h hkind
  exact extract_of_closesAt (hk.widen hw hm hle)

/-- A dialect with a window never fails on a line of the text. It agrees with the dialect that
fails on every block of which an opener is counted within the window, and in place of all others
it gives the window, or stops the program if the window has no end. A larger window keeps every
balanced span. -/
theorem extract_window_or_fail (d failing windowed : Dialect) (n : Nat)
    (hf : d.withFallback .fail = .ok failing) (hw : d.withFallback (.window n) = .ok windowed)
    (t : Source) (start : Nat) (hs : start < t.size) :
    let last := min (start + n - 1) (t.size - 1)
    let opened := (totals t start d (last - start)).opened
    let windowTo (last : Nat) : Option (Except ExtractError BlockSpan) :=
      if start + n < UInt64.size then some (.ok (.ofLines t start last .window)) else none
    (∀ e, extract t start windowed ≠ some (.error e)) ∧
    (∀ span, extract t start failing = some (.ok span) → span.kind = .balanced ∧
      (0 < opened → extract t start windowed = some (.ok span)) ∧
      (opened = 0 → start + n - 1 < span.endLine ∧
        extract t start windowed = windowTo (start + n - 1))) ∧
    (∀ e, extract t start failing = some (.error e) →
      extract t start windowed = windowTo last) ∧
    ∀ m widened, n ≤ m → d.withFallback (.window m) = .ok widened →
      ∀ span, extract t start windowed = some (.ok span) → span.kind = .balanced →
        extract t start widened = some (.ok span) := by
  intro last opened windowTo
  have hx := extraction (d := failing) hs
  refine ⟨extract_windowed_ne_error hw hs, ?_, ?_, ?_⟩
  · intro span hspan
    rw [hspan] at hx
    cases hx with
    | @balanced k hk =>
        refine ⟨rfl, fun hpos => ?_, fun hzero => ?_⟩
        · exact extract_of_closesAt ((closesAt_windowed_of_closesAt hf hw hk).2 hpos)
        · have hlt := window_lt_of_unopened hf hk hzero
          have hrange := hk.inRange
          have hend : min (start + n - 1) (t.size - 1) = start + n - 1 := by omega
          have hwindow := extract_windowed_of_never hw hs
            fun _ => not_closesAt_windowed_of_unopened hf hw hzero
          rw [hend] at hwindow
          exact ⟨hlt, hwindow⟩
    | window _ hsize =>
        rw [Dialect.fallback_withFallback hf] at hsize
        cases hsize
  · intro e herror
    rw [herror] at hx
    cases hx with
    | unbalanced hnever =>
        exact extract_windowed_of_never hw hs fun k hk =>
          hnever k ((closesAt_windowed_iff hf hw).1 hk).1
  · intro m widened hle hm span hspan hkind
    exact extract_widen hw hm hle hspan hkind

theorem extract_window_or_fail_brace :
    let t : Source := ⟨["int f()", "// \x7b", "\x7b", "\x7d"].map String.toList⟩
    ∃ failing two three nine, Dialect.brace.withFallback .fail = .ok failing ∧
      Dialect.brace.withFallback (.window 2) = .ok two ∧
      Dialect.brace.withFallback (.window 3) = .ok three ∧
      Dialect.brace.withFallback (.window 9) = .ok nine ∧
      extract t 0 failing = some (.ok (.ofLines t 0 3 .balanced)) ∧
      extract t 0 two = some (.ok (.ofLines t 0 1 .window)) ∧
      extract t 0 three = some (.ok (.ofLines t 0 3 .balanced)) ∧
      extract t 0 nine = some (.ok (.ofLines t 0 3 .balanced)) := by
  intro t
  let failing : Dialect := { Dialect.brace with fallback := .fail, fallback_ne := by decide }
  let two : Dialect := { Dialect.brace with fallback := .window 2, fallback_ne := by decide }
  let three : Dialect := { Dialect.brace with fallback := .window 3, fallback_ne := by decide }
  let nine : Dialect := { Dialect.brace with fallback := .window 9, fallback_ne := by decide }
  have hs : 0 < t.size := by decide
  have hblock : extract t 0 failing = some (.ok (.ofLines t 0 3 .balanced)) := by decide +kernel
  obtain ⟨-, hlate, -⟩ := extract_window_or_fail Dialect.brace failing two 2 rfl rfl t 0 hs
  obtain ⟨-, hearly, -, hwide⟩ :=
    extract_window_or_fail Dialect.brace failing three 3 rfl rfl t 0 hs
  have htwo := ((hlate _ hblock).2.2 (by decide +kernel)).2.trans (if_pos (by decide))
  have hthree := (hearly _ hblock).2.1 (by decide +kernel)
  have hnine := hwide 9 nine (by decide) rfl _ hthree rfl
  exact ⟨failing, two, three, nine, rfl, rfl, rfl, rfl, hblock, htwo, hthree, hnine⟩

/-- From the third of three lines the block never closes, and the largest window stops the
program. -/
theorem not_extract_window_or_fail :
    let t : Source := ⟨["a", "b", "c"].map String.toList⟩
    ∃ failing windowed, Dialect.brace.withFallback .fail = .ok failing ∧
      Dialect.brace.withFallback (.window (2 ^ 64 - 1)) = .ok windowed ∧
      extract t 2 failing = some (.error (.unbalanced 2 0 0)) ∧
      extract t 2 windowed ≠ some (.ok (.ofLines t 2 2 .window)) := by
  refine ⟨{ Dialect.brace with fallback := .fail, fallback_ne := by decide },
    { Dialect.brace with fallback := .window (2 ^ 64 - 1), fallback_ne := by decide }, rfl, rfl,
    ?_, ?_⟩ <;> decide +kernel

end CodeSpan
