import CodeSpan.Proofs.ResolveOutcome
import Mathlib.Data.List.ReduceOption

/-!
# Hops inside a text

Each hop that succeeds leaves the text of its span as the text of the next one, and each hop that
fails leaves the text alone. However many hops are made, the text at hand is made of a range of
consecutive lines of the first text, and a successful hop moves that range to the lines of its
span, which begin with the line of the name it found. A hop that stops the program is the last.
-/

namespace CodeSpan

structure LineRange where
  first : Nat
  last : Nat
deriving DecidableEq

namespace LineRange

def whole (t : Source) : LineRange :=
  ⟨0, t.size - 1⟩

/-- The range after a hop, whose span counts its lines from the first line of the range. -/
def after (range : LineRange) : Except StepError Resolution → LineRange
  | .error _ => range
  | .ok r => ⟨range.first + r.span.startLine, range.first + r.span.endLine⟩

/-- The range lies in a source and the lines of a text are exactly the lines of the range. -/
structure Holds (range : LineRange) (t : Source) (text : List Char) : Prop where
  ordered : range.first ≤ range.last
  inside : range.last < t.size
  lines_eq : Source.ofText text = t.segment range.first range.last

end LineRange

def textAt (d : Dialect) (s : List Char) (qs : List (Except QueryError Query)) (k : Nat) :
    List Char :=
  ((hops d s qs).take k).reduceOption.foldl textAfter s

def rangeAt (d : Dialect) (s : List Char) (qs : List (Except QueryError Query)) (k : Nat) :
    LineRange :=
  ((hops d s qs).take k).reduceOption.foldl LineRange.after (.whole (.ofText s))

variable {d : Dialect} {s text : List Char} {t : Source} {range : LineRange}
  {q : Except QueryError Query} {qs : List (Except QueryError Query)} {r : Resolution} {k : Nat}
  {outcome : Except StepError Resolution}

theorem hops_cons_of_stopped (h : takeStep text q d = none) : hops d text (q :: qs) = [none] := by
  rw [hops, h]

theorem hops_cons_of_taken (h : takeStep text q d = some outcome) :
    hops d text (q :: qs) = some outcome :: hops d (textAfter text outcome) qs := by
  rw [hops, h]

theorem resolve_of_takeStep (h : takeStep text q d = some (.ok r)) :
    ∃ query, q = .ok query ∧ resolve (.ofText text) query d = some (.ok r) := by
  cases q with
  | error e => cases h
  | ok query =>
      obtain ⟨o, ho, hr⟩ := Option.map_eq_some_iff.1 h
      cases o with
      | error e => cases hr
      | ok r' =>
          cases hr
          exact ⟨query, rfl, ho⟩

/-- A hop stops the program at a name whose block never closes and has a window without an end. -/
theorem takeStep_eq_none_iff :
    takeStep text q d = none ↔ ∃ query p size, q = .ok query ∧
      locate? (.ofText text) query d = some p ∧ (∀ k, ¬ ClosesAt (.ofText text) p.line d k) ∧
      d.fallback = .window size ∧ UInt64.size ≤ p.line + size := by
  cases q with
  | error e => simp [takeStep]
  | ok query =>
      rw [takeStep, Option.map_eq_none_iff, resolve_stops_iff]
      simp

theorem bounds_of_takeStep (h : takeStep text q d = some (.ok r)) :
    r.span.startLine = r.position.line ∧ r.span.startLine ≤ r.span.endLine ∧
      r.span.endLine < (Source.ofText text).size ∧
      r.span.text = (Source.ofText text).join r.span.startLine r.span.endLine := by
  obtain ⟨query, -, hr⟩ := resolve_of_takeStep h
  obtain ⟨hstart, hle, hlast, htext⟩ := bounds_of_extract (resolve_eq_ok_iff.1 hr).2
  rw [← hstart] at hle htext
  exact ⟨hstart, hle, hlast, htext⟩

namespace LineRange

theorem holds_whole (s : List Char) : (whole (.ofText s)).Holds (.ofText s) s where
  ordered := Nat.zero_le _
  inside := Nat.sub_lt (Source.size_ofText_pos s) Nat.one_pos
  lines_eq := (Source.segment_zero (Source.size_ofText_pos s)).symm

theorem Holds.size_eq (h : range.Holds t text) :
    (Source.ofText text).size = range.last + 1 - range.first := by
  rw [h.lines_eq, Source.size_segment range.first h.inside]

/-- One hop keeps to the lines at hand, whether it succeeds or fails. -/
theorem Holds.step (h : range.Holds t text) (ho : takeStep text q d = some outcome) :
    (range.after outcome).Holds t (textAfter text outcome) ∧
      (Source.ofText (textAfter text outcome)).size ≤ (Source.ofText text).size := by
  cases outcome with
  | error e => exact ⟨h, Nat.le_refl _⟩
  | ok r =>
      obtain ⟨-, hle, hlast, htext⟩ := bounds_of_takeStep ho
      have hsize := h.size_eq
      have hordered := h.ordered
      have hinside := h.inside
      have hin : range.first + r.span.endLine ≤ range.last := by omega
      have hlines : Source.ofText r.span.text =
          t.segment (range.first + r.span.startLine) (range.first + r.span.endLine) := by
        rw [htext, Source.ofText_join (Source.split_ofText text) hle (by omega), h.lines_eq,
          Source.segment_segment hin]
      have hnext : (range.after (.ok r)).Holds t r.span.text :=
        ⟨Nat.add_le_add_left hle _, Nat.lt_of_le_of_lt hin hinside, hlines⟩
      refine ⟨hnext, ?_⟩
      have hsize' := hnext.size_eq
      simp only [after] at hsize'
      change (Source.ofText r.span.text).size ≤ (Source.ofText text).size
      omega

theorem Holds.foldl_hops (h : range.Holds t s) (qs : List (Except QueryError Query)) (k : Nat) :
    (((hops d s qs).take k).reduceOption.foldl after range).Holds t
      (((hops d s qs).take k).reduceOption.foldl textAfter s) := by
  -- Every hop starts anew from the text and the range that the one before it leaves.
  induction qs generalizing s range k with
  | nil => simpa [hops] using h
  | cons q qs ih =>
      cases k with
      | zero => exact h
      | succ k =>
          cases ho : takeStep s q d with
          | none =>
              rw [hops_cons_of_stopped ho]
              simpa using h
          | some outcome =>
              rw [hops_cons_of_taken ho]
              exact ih (h.step ho).1 k

end LineRange

theorem getElem?_hops_iff {result : Option (Except StepError Resolution)} :
    (hops d s qs)[k]? = some result ↔
      (∀ j < k, (hops d s qs)[j]? ≠ some none) ∧
        ∃ q, qs[k]? = some q ∧ takeStep (textAt d s qs k) q d = result := by
  -- The later hops are those from the text that the first one leaves.
  induction qs generalizing s k with
  | nil => simp [hops]
  | cons q qs ih =>
      cases ho : takeStep s q d with
      | none =>
          rw [textAt, hops_cons_of_stopped ho]
          cases k with
          | zero => simp [ho]
          | succ k => exact iff_of_false (by simp) fun h => h.1 0 (Nat.succ_pos k) rfl
      | some outcome =>
          cases k with
          | zero => simp [textAt, hops_cons_of_taken ho, ho]
          | succ k =>
              have htext : textAt d s (q :: qs) (k + 1) = textAt d (textAfter s outcome) qs k := by
                rw [textAt, hops_cons_of_taken ho]
                rfl
              rw [htext, hops_cons_of_taken ho]
              simp only [List.getElem?_cons_succ]
              rw [ih, Nat.forall_lt_succ_left]
              simp

theorem at_succ (h : (hops d s qs)[k]? = some (some outcome)) :
    textAt d s qs (k + 1) = textAfter (textAt d s qs k) outcome ∧
      rangeAt d s qs (k + 1) = (rangeAt d s qs k).after outcome := by
  have htake : ((hops d s qs).take (k + 1)).reduceOption =
      ((hops d s qs).take k).reduceOption ++ [outcome] := by
    rw [List.take_add_one, h, List.reduceOption_append]
    rfl
  rw [textAt, textAt, rangeAt, rangeAt, htake, List.foldl_concat, List.foldl_concat]
  exact ⟨rfl, rfl⟩

theorem textAt_succ_of_stopped (h : (hops d s qs)[k]?.join = none) :
    textAt d s qs (k + 1) = textAt d s qs k := by
  have htake : ((hops d s qs).take (k + 1)).reduceOption =
      ((hops d s qs).take k).reduceOption := by
    rw [List.take_add_one, List.reduceOption_append]
    rcases ho : (hops d s qs)[k]? with _ | _ | outcome
    · simp
    · simp
    · rw [ho] at h
      cases h
  rw [textAt, htake, textAt]

theorem size_textAt_succ_le (d : Dialect) (s : List Char) (qs : List (Except QueryError Query))
    (k : Nat) :
    (Source.ofText (textAt d s qs (k + 1))).size ≤ (Source.ofText (textAt d s qs k)).size := by
  cases ho : (hops d s qs)[k]?.join with
  | none => rw [textAt_succ_of_stopped ho]
  | some outcome =>
      have hout := Option.join_eq_some_iff.1 ho
      obtain ⟨-, q, -, hq⟩ := getElem?_hops_iff.1 hout
      have hholds := (LineRange.holds_whole s).foldl_hops (d := d) qs k
      rw [(at_succ hout).1]
      exact (hholds.step hq).2

/-- Through any sequence of hops the text at hand is a range of lines of the first text. A hop
that succeeds moves the range to the lines of its span, and one that fails leaves it where it
is, so the number of lines never grows. All queries are put one after the other, unless a hop
stops the program at a window that has no end. -/
theorem hops_inside (s : List Char) (d : Dialect) (qs : List (Except QueryError Query)) :
    (∀ k, (rangeAt d s qs k).first ≤ (rangeAt d s qs k).last ∧
      (rangeAt d s qs k).last < (Source.ofText s).size ∧
      Source.ofText (textAt d s qs k) =
        (Source.ofText s).segment (rangeAt d s qs k).first (rangeAt d s qs k).last) ∧
    (∀ k result, (hops d s qs)[k]? = some result ↔
      (∀ j < k, (hops d s qs)[j]? ≠ some none) ∧
        ∃ q, qs[k]? = some q ∧ takeStep (textAt d s qs k) q d = result) ∧
    (∀ k q, takeStep (textAt d s qs k) q d = none ↔ ∃ query p size, q = .ok query ∧
      locate? (.ofText (textAt d s qs k)) query d = some p ∧
      (∀ m, ¬ ClosesAt (.ofText (textAt d s qs k)) p.line d m) ∧
      d.fallback = .window size ∧ UInt64.size ≤ p.line + size) ∧
    (∀ k e, (hops d s qs)[k]? = some (some (.error e)) →
      textAt d s qs (k + 1) = textAt d s qs k ∧ rangeAt d s qs (k + 1) = rangeAt d s qs k) ∧
    (∀ k r, (hops d s qs)[k]? = some (some (.ok r)) →
      textAt d s qs (k + 1) = r.span.text ∧ r.span.startLine = r.position.line ∧
        r.span.startLine ≤ r.span.endLine ∧
        r.span.endLine < (Source.ofText (textAt d s qs k)).size ∧
        rangeAt d s qs (k + 1) = ⟨(rangeAt d s qs k).first + r.span.startLine,
          (rangeAt d s qs k).first + r.span.endLine⟩) ∧
    ∀ k, (Source.ofText (textAt d s qs (k + 1))).size ≤
      (Source.ofText (textAt d s qs k)).size := by
  refine ⟨?_, fun _ _ => getElem?_hops_iff, fun _ _ => takeStep_eq_none_iff, ?_, ?_,
    size_textAt_succ_le d s qs⟩
  · intro k
    have hholds := (LineRange.holds_whole s).foldl_hops (d := d) qs k
    exact ⟨hholds.ordered, hholds.inside, hholds.lines_eq⟩
  · intro k e he
    exact at_succ he
  · intro k r hr
    obtain ⟨-, q, -, hq⟩ := getElem?_hops_iff.1 hr
    obtain ⟨hstart, hle, hlast, -⟩ := bounds_of_takeStep hq
    exact ⟨(at_succ hr).1, hstart, hle, hlast, (at_succ hr).2⟩

end CodeSpan
