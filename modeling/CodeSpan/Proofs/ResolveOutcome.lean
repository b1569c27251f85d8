import CodeSpan.Proofs.LocateInsertion
import CodeSpan.Proofs.Resolution

/-!
# Outcomes of resolving

A name is resolved in two steps, and each failure belongs to one of them. It is not found exactly
when it is not located, and any other failure is that of the block on the located line. A located
line is a line of the text, so it is never out of range. A dialect with a window gives a span for
it or stops the program, and a dialect without one fails only because the block never closes.
-/

namespace CodeSpan

variable {t : Source} {q : Query} {d : Dialect} {start : Nat} {p : Position} {r : Resolution}

theorem Query.name_of_ofText {name : List Char} {hint : Option (List Char)} {mode : SearchMode}
    (h : Query.ofText name hint mode = .ok q) : q.name = Text.trim name := by
  unfold ofText at h
  dsimp only at h
  split at h
  · cases h
  · cases h
    rfl

/-- From a line of the text an extraction fails only for want of a window, because the block
never closes. -/
theorem extract_eq_error_iff (hs : start < t.size) {e : ExtractError} :
    extract t start d = some (.error e) ↔
      d.fallback = .fail ∧ (∀ k, ¬ ClosesAt t start d k) ∧
        e = .unbalanced start (totals t start d (t.size - 1 - start)).opened
          (totals t start d (t.size - 1 - start)).closed := by
  constructor
  · intro h
    have hx := extraction (d := d) hs
    rw [h] at hx
    cases hx with
    | unbalanced hnever hf => exact ⟨hf, hnever, rfl⟩
  · rintro ⟨hf, hnever, rfl⟩
    exact extract_of_fail hs hf hnever

theorem exists_extract_of_window {size : Nat} (hs : start < t.size)
    (hf : d.fallback = .window size) (hfits : start + size < UInt64.size) :
    ∃ span, extract t start d = some (.ok span) := by
  have hx := extraction (d := d) hs
  generalize extract t start d = outcome at hx
  cases hx with
  | balanced => exact ⟨_, rfl⟩
  | window => exact ⟨_, rfl⟩
  | stopped _ hf' hover =>
      rw [hf] at hf'
      cases hf'
      exact absurd hfits (Nat.not_lt.2 hover)
  | unbalanced _ hf' =>
      rw [hf] at hf'
      cases hf'

theorem resolve_eq_notFound_iff {name : List Char} :
    resolve t q d = some (.error (.notFound name)) ↔ locate? t q d = none ∧ name = q.name := by
  rw [resolve]
  cases locate? t q d with
  | none => simp [eq_comm]
  | some p =>
      dsimp only
      cases extract t p.line d with
      | none => simp
      | some outcome => cases outcome <;> simp

theorem resolve_eq_extract_iff {e : ExtractError} :
    resolve t q d = some (.error (.extract e)) ↔
      ∃ p, locate? t q d = some p ∧ extract t p.line d = some (.error e) := by
  rw [resolve]
  cases locate? t q d with
  | none => simp
  | some p =>
      cases he : extract t p.line d with
      | none => simp [he]
      | some outcome => cases outcome <;> simp [he]

theorem resolve_eq_none_iff :
    resolve t q d = none ↔ ∃ p, locate? t q d = some p ∧ extract t p.line d = none := by
  rw [resolve]
  cases locate? t q d with
  | none => simp
  | some p => simp

/-- Resolving stops the program exactly at a block that never closes and whose window has an end
that is no word. -/
theorem resolve_stops_iff :
    resolve t q d = none ↔ ∃ p size, locate? t q d = some p ∧
      (∀ k, ¬ ClosesAt t p.line d k) ∧ d.fallback = .window size ∧
        UInt64.size ≤ p.line + size := by
  rw [resolve_eq_none_iff]
  constructor
  · rintro ⟨p, hp, he⟩
    obtain ⟨-, hnever, size, hf, hover⟩ := extract_eq_none_iff.1 he
    exact ⟨p, size, hp, hnever, hf, hover⟩
  · rintro ⟨p, size, hp, hnever, hf, hover⟩
    exact ⟨p, hp, extract_of_overflow (line_lt_of_locate? hp) hf hover hnever⟩

theorem resolve_of_locate? (h : locate? t q d = some p) :
    (∃ span, extract t p.line d = some (.ok span) ∧ resolve t q d = some (.ok ⟨p, span⟩)) ∨
    (∃ e, extract t p.line d = some (.error e) ∧ resolve t q d = some (.error (.extract e))) ∨
    extract t p.line d = none ∧ resolve t q d = none := by
  cases he : extract t p.line d with
  | none => exact .inr (.inr ⟨rfl, resolve_eq_none_iff.2 ⟨p, h, he⟩⟩)
  | some outcome =>
      cases outcome with
      | ok span => exact .inl ⟨span, rfl, resolve_eq_ok_iff.2 ⟨h, he⟩⟩
      | error e => exact .inr (.inl ⟨e, rfl, resolve_eq_extract_iff.2 ⟨p, h, he⟩⟩)

/-- Resolving reports the trimmed name as not found exactly when it is not located. It stops the
program exactly when the block on the located line never closes and its window has an end that is
no word. Otherwise it fails only without a window, with the totals of a block that never closes on
the located line, and it succeeds with the located position and a span that begins on the located
line. -/
theorem resolve_outcomes (t : Source) (q : Query) (d : Dialect) :
    (∀ name, resolve t q d = some (.error (.notFound name)) ↔
      locate? t q d = none ∧ name = q.name) ∧
    (∀ name hint mode, Query.ofText name hint mode = .ok q → q.name = Text.trim name) ∧
    (∀ line size, resolve t q d ≠ some (.error (.extract (.startOutOfRange line size)))) ∧
    (∀ size, d.fallback = .window size → ∀ p, locate? t q d = some p →
      p.line + size < UInt64.size → ∃ r, resolve t q d = some (.ok r)) ∧
    (resolve t q d = none ↔ ∃ p size, locate? t q d = some p ∧
      (∀ k, ¬ ClosesAt t p.line d k) ∧ d.fallback = .window size ∧
        UInt64.size ≤ p.line + size) ∧
    (∀ e, resolve t q d = some (.error (.extract e)) ↔ d.fallback = .fail ∧
      ∃ p, locate? t q d = some p ∧ (∀ k, ¬ ClosesAt t p.line d k) ∧
        e = .unbalanced p.line (totals t p.line d (t.size - 1 - p.line)).opened
          (totals t p.line d (t.size - 1 - p.line)).closed) ∧
    (∀ r, resolve t q d = some (.ok r) → locate? t q d = some r.position ∧
      r.span.startLine = r.position.line ∧ r.position.line ≤ r.span.endLine ∧
      r.span.endLine < t.size ∧ r.span.text = t.join r.position.line r.span.endLine) := by
  refine ⟨fun _ => resolve_eq_notFound_iff, fun _ _ _ => Query.name_of_ofText, ?_, ?_,
    resolve_stops_iff, ?_, ?_⟩
  · intro line size h
    obtain ⟨p, hp, he⟩ := resolve_eq_extract_iff.1 h
    exact absurd (extract_eq_startOutOfRange_iff.1 he).1 (Nat.not_le_of_lt (line_lt_of_locate? hp))
  · intro size hf p hp hfits
    obtain ⟨span, he⟩ := exists_extract_of_window (line_lt_of_locate? hp) hf hfits
    exact ⟨⟨p, span⟩, resolve_eq_ok_iff.2 ⟨hp, he⟩⟩
  · intro e
    rw [resolve_eq_extract_iff]
    constructor
    · rintro ⟨p, hp, he⟩
      obtain ⟨hfail, hnever, heq⟩ := (extract_eq_error_iff (line_lt_of_locate? hp)).1 he
      exact ⟨hfail, p, hp, hnever, heq⟩
    · rintro ⟨hfail, p, hp, hnever, heq⟩
      exact ⟨p, hp, (extract_eq_error_iff (line_lt_of_locate? hp)).2 ⟨hfail, hnever, heq⟩⟩
  · intro r h
    obtain ⟨hp, he⟩ := resolve_eq_ok_iff.1 h
    exact ⟨hp, bounds_of_extract he⟩

theorem not_resolve_outcomes :
    let t : Source := ⟨["a", "b", "foo"].map String.toList⟩
    let q : Query := ⟨"foo".toList, none, .usage, by decide, by simp⟩
    ∃ windowed, Dialect.brace.withFallback (.window (2 ^ 64 - 1)) = .ok windowed ∧
      locate? t q windowed = some ⟨2, 0⟩ ∧ ¬ ∃ r, resolve t q windowed = some (.ok r) := by
  intro t q
  let windowed : Dialect :=
    { Dialect.brace with fallback := .window (2 ^ 64 - 1), fallback_ne := by decide }
  have hstopped : resolve t q windowed = none := by decide +kernel
  refine ⟨windowed, rfl, by decide +kernel, ?_⟩
  rintro ⟨r, hr⟩
  rw [hstopped] at hr
  cases hr

end CodeSpan
