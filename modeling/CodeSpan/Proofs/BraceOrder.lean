import CodeSpan.Proofs.BraceCount
import CodeSpan.Proofs.Extraction
import CodeSpan.Proofs.Stock
import Mathlib.Combinatorics.Enumerative.DyckWord

/-!
# The order of the braces in a block

A block between braces ends on the first line behind which as many braces were closed as opened.
The count compares whole lines and does not look at the order of the braces on a line, so a
block may end although its braces do not match. They match exactly when no line closes a block
before the first one is opened, and no line behind it closes two or more blocks that are not
open: a line that closes one block too many is never reached.
-/

namespace CodeSpan

/-- Every opening brace with the closing brace that matches it. -/
inductive BracesMatch : List DyckStep → Prop where
  | nil : BracesMatch []
  | block {inner rest : List DyckStep} (inside : BracesMatch inner) (behind : BracesMatch rest) :
      BracesMatch (.U :: (inner ++ .D :: rest))

/-- No beginning of the braces has more than `extra` closers more than it has openers. -/
def ClosesWithin (extra : Nat) (braces : List DyckStep) : Prop :=
  ∀ p, p <+: braces → p.count .D ≤ p.count .U + extra

instance (extra : Nat) (braces : List DyckStep) : Decidable (ClosesWithin extra braces) :=
  decidable_of_iff (∀ p ∈ braces.inits, p.count .D ≤ p.count .U + extra) (by
    simp only [List.mem_inits, ClosesWithin])

/-- What a line behind some braces may close beyond its own openers: nothing before the first
brace, and one block or all that are open behind it. -/
def slack (before : List DyckStep) : Nat :=
  if before = [] then 0 else max 1 (before.count .U - before.count .D)

theorem bracesMatch_toList (w : DyckWord) : BracesMatch w.toList := by
  induction hn : w.semilength using Nat.strong_induction_on generalizing w with
  | _ n ih =>
      by_cases hw : w = 0
      · rw [hw]
        exact .nil
      · have hinside := w.semilength_insidePart_lt hw
        have houtside := w.semilength_outsidePart_lt hw
        have hblock := BracesMatch.block (ih _ (hn ▸ hinside) w.insidePart rfl)
          (ih _ (hn ▸ houtside) w.outsidePart rfl)
        have hlist : w.toList =
            .U :: (w.insidePart.toList ++ .D :: w.outsidePart.toList) := by
          have hparts := congrArg DyckWord.toList (DyckWord.nest_insidePart_add_outsidePart hw)
          rw [← hparts]
          change ([DyckStep.U] ++ w.insidePart.toList ++ [DyckStep.D]) ++ w.outsidePart.toList = _
          simp
        exact hlist ▸ hblock

namespace ClosesWithin

variable {braces before line : List DyckStep} {lines : List (List DyckStep)} {extra : Nat}

theorem bracesMatch (h : ClosesWithin 0 braces) (heq : braces.count .U = braces.count .D) :
    BracesMatch braces :=
  bracesMatch_toList ⟨braces, heq, fun i => h _ (List.take_prefix i braces)⟩

theorem eq_nil_of_counts (hU : braces.count .U = 0) (hD : braces.count .D = 0) : braces = [] := by
  rw [List.eq_nil_iff_forall_not_mem]
  intro step hmem
  rcases step.dichotomy with rfl | rfl
  · exact List.count_eq_zero.1 hU hmem
  · exact List.count_eq_zero.1 hD hmem

theorem append (hbefore : ClosesWithin 0 before)
    (hline : ClosesWithin (before.count .U - before.count .D) line) :
    ClosesWithin 0 (before ++ line) := by
  intro p hp
  rcases List.prefix_or_prefix_of_prefix hp (List.prefix_append before line) with hin | ⟨q, rfl⟩
  · exact hbefore p hin
  · have hall := hbefore before (List.prefix_refl before)
    have hq := hline q ((List.prefix_append_right_inj before).1 hp)
    rw [List.count_append, List.count_append]
    omega

theorem of_append (h : ClosesWithin 0 (before ++ line)) :
    ClosesWithin (before.count .U - before.count .D) line := by
  intro q hq
  have hall := h before (List.prefix_append before line)
  have hp := h (before ++ q) ((List.prefix_append_right_inj before).2 hq)
  rw [List.count_append, List.count_append] at hp
  omega

theorem mono {more : Nat} (h : ClosesWithin extra braces) (hle : extra ≤ more) :
    ClosesWithin more braces :=
  fun p hp => (h p hp).trans (Nat.add_le_add_left hle _)

theorem flatten_take_succ {j : Nat} (hj : j < lines.length) :
    (lines.take (j + 1)).flatten = (lines.take j).flatten ++ lines[j]?.getD [] := by
  rw [List.take_add_one, List.flatten_append, List.getElem?_eq_getElem hj]
  simp

/-- Braces counted equal at no line end but the last are in order exactly when every line keeps
within its slack. -/
theorem flatten_iff (h : ∀ j < lines.length,
    (lines.take j).flatten.count .U = (lines.take j).flatten.count .D →
      (lines.take j).flatten.count .U = 0) :
    ClosesWithin 0 lines.flatten ↔
      ∀ j < lines.length, ClosesWithin (slack (lines.take j).flatten) (lines[j]?.getD []) := by
  constructor
  · intro hall j hj
    have hsplit : lines.flatten = (lines.take (j + 1)).flatten ++ (lines.drop (j + 1)).flatten := by
      rw [← List.flatten_append, List.take_append_drop]
    have hupto : ClosesWithin 0 ((lines.take j).flatten ++ lines[j]?.getD []) := by
      rw [← flatten_take_succ hj]
      intro p hp
      exact hall p (hp.trans (hsplit ▸ List.prefix_append _ _))
    refine hupto.of_append.mono ?_
    rw [slack]
    split_ifs with hnil
    · simp [hnil]
    · exact Nat.le_max_right _ _
  · intro hlines
    have hupto : ∀ j ≤ lines.length, ClosesWithin 0 (lines.take j).flatten := by
      intro j
      induction j with
      | zero =>
          intro _ p hp
          rw [List.prefix_nil.1 hp]
          exact Nat.zero_le _
      | succ j ih =>
          intro hj
          have hbefore := ih (Nat.le_of_succ_le hj)
          have hline := hlines j hj
          rw [flatten_take_succ hj]
          refine hbefore.append (hline.mono ?_)
          rw [slack]
          split_ifs with hnil
          · exact Nat.zero_le _
          · -- A block is open before the line, or the count would have ended there.
            have hle := hbefore _ (List.prefix_refl _)
            have hopen : (lines.take j).flatten.count .U ≠ (lines.take j).flatten.count .D := by
              intro heq
              have hzero := h j hj heq
              exact hnil (eq_nil_of_counts hzero (heq ▸ hzero))
            omega
    have hall := hupto lines.length (Nat.le_refl _)
    rwa [List.take_length] at hall

end ClosesWithin

def braceStep? (c : Char) : Option DyckStep :=
  if c = '\x7b' then some .U else if c = '\x7d' then some .D else none

def LineClass.braces : LineClass → List DyckStep
  | .comment => []
  | .code text => text.filterMap braceStep?

def spanBraces (t : Source) (d : Dialect) (span : BlockSpan) : List (List DyckStep) :=
  ((blockClasses t span.startLine d).take span.lineCount).map LineClass.braces

theorem count_filterMap_braceStep? (text : List Char) :
    (text.filterMap braceStep?).count .U = text.count '\x7b' ∧
      (text.filterMap braceStep?).count .D = text.count '\x7d' := by
  induction text with
  | nil => exact ⟨rfl, rfl⟩
  | cons c text ih =>
      by_cases ho : c = '\x7b'
      · subst ho
        simpa [braceStep?] using ih
      · by_cases hc : c = '\x7d'
        · subst hc
          simpa [braceStep?] using ih
        · have hskip : braceStep? c = none := by rw [braceStep?, if_neg ho, if_neg hc]
          rw [List.filterMap_cons_none hskip, List.count_cons_of_ne ho, List.count_cons_of_ne hc]
          exact ih

theorem count_braces (cls : LineClass) :
    cls.braces.count .U = Dialect.braceBlocks.opensOn cls ∧
      cls.braces.count .D = Dialect.braceBlocks.closesOn cls := by
  cases cls with
  | comment => exact ⟨rfl, rfl⟩
  | code text =>
      have hcounts := count_filterMap_braceStep? text
      rw [BlockRules.opensOn, BlockRules.closesOn, Dialect.countOpens_braceBlocks,
        Dialect.countCloses_braceBlocks]
      exact hcounts

theorem after_braceBlocks (lines : List LineClass) :
    Tally.after ⟨0, 0⟩ Dialect.braceBlocks lines =
      ⟨(lines.map LineClass.braces).flatten.count .U,
        (lines.map LineClass.braces).flatten.count .D⟩ := by
  have hopens : (List.count DyckStep.U ∘ LineClass.braces) = Dialect.braceBlocks.opensOn :=
    funext fun cls => (count_braces cls).1
  have hcloses : (List.count DyckStep.D ∘ LineClass.braces) = Dialect.braceBlocks.closesOn :=
    funext fun cls => (count_braces cls).2
  rw [Tally.after, List.count_flatten, List.count_flatten, List.map_map, List.map_map, hopens,
    hcloses, Nat.zero_add, Nat.zero_add]

section Span

variable {t : Source} {start j k : Nat} {d : Dialect} {f : Fallback}

theorem spanBraces_ofLines (t : Source) (start k : Nat) (d : Dialect) (kind : SpanKind) :
    spanBraces t d (.ofLines t start (start + k) kind) =
      ((blockClasses t start d).take (k + 1)).map LineClass.braces := by
  have hcount : (BlockSpan.ofLines t start (start + k) kind).lineCount = k + 1 := by
    rw [BlockSpan.lineCount, BlockSpan.ofLines, Nat.add_sub_cancel_left]
  rw [spanBraces, hcount]
  rfl

theorem totals_eq_counts (hd : Dialect.brace.withFallback f = .ok d) (hj : j ≤ k) :
    totals t start d j =
      let upTo := ((((blockClasses t start d).take (k + 1)).map LineClass.braces).take (j + 1))
      ⟨upTo.flatten.count .U, upTo.flatten.count .D⟩ := by
  obtain ⟨-, hblocks, hinline, himplicit⟩ := Dialect.syntax_of_withFallback hd
  have hrules : startRules t start d = (Dialect.braceBlocks, 0) := by
    rw [startRules]
    simp [Dialect.selectRules, hblocks, hinline, himplicit, Dialect.brace]
  rw [totals, hrules, ← List.map_take, List.take_take, Nat.min_eq_left (by omega)]
  exact after_braceBlocks _

theorem ClosesAt.counts (hd : Dialect.brace.withFallback f = .ok d) (hk : ClosesAt t start d k) :
    let lines := ((blockClasses t start d).take (k + 1)).map LineClass.braces
    (lines.flatten.count .U = lines.flatten.count .D ∧ 0 < lines.flatten.count .U) ∧
      ∀ j < lines.length, (lines.take j).flatten.count .U = (lines.take j).flatten.count .D →
        (lines.take j).flatten.count .U = 0 := by
  intro lines
  have hlength : lines.length = k + 1 := by
    have hrange := hk.inRange
    rw [List.length_map, List.length_take, length_blockClasses]
    omega
  constructor
  · have hend := hk.balanced
    rw [totals_eq_counts hd (Nat.le_refl k)] at hend
    dsimp only at hend
    rw [List.take_of_length_le (Nat.le_of_eq hlength)] at hend
    exact ⟨hend.1, Nat.pos_of_ne_zero hend.2⟩
  · intro j hj heq
    cases j with
    | zero => rfl
    | succ j =>
        have hjk : j < k := by omega
        have hon := (hk.goesOn j hjk).1
        rw [totals_eq_counts hd (Nat.le_of_lt hjk)] at hon
        by_contra hne
        exact hon ⟨heq, hne⟩

end Span

/-- The braces of a balanced span count equal at its end and at no line end before. They match
exactly when every line of the span keeps within its slack. -/
theorem braces_of_extract (f : Fallback) (d : Dialect)
    (hd : Dialect.brace.withFallback f = .ok d) (t : Source) (start : Nat) (span : BlockSpan)
    (h : extract t start d = some (.ok span)) (hkind : span.kind = .balanced) :
    let lines := spanBraces t d span
    (lines.flatten.count .U = lines.flatten.count .D ∧ 0 < lines.flatten.count .U) ∧
      (∀ j < lines.length, (lines.take j).flatten.count .U = (lines.take j).flatten.count .D →
        (lines.take j).flatten.count .U = 0) ∧
      (ClosesWithin 0 lines.flatten ↔
        ∀ j < lines.length, ClosesWithin (slack (lines.take j).flatten) (lines[j]?.getD [])) ∧
      (ClosesWithin 0 lines.flatten → BracesMatch lines.flatten) := by
  intro lines
  obtain ⟨k, hk, rfl⟩ := closesAt_of_extract h hkind
  have hlines : lines = ((blockClasses t start d).take (k + 1)).map LineClass.braces :=
    spanBraces_ofLines t start k d .balanced
  obtain ⟨hend, hbefore⟩ := hk.counts hd
  rw [← hlines] at hend hbefore
  exact ⟨hend, hbefore, ClosesWithin.flatten_iff hbefore, fun hall => hall.bracesMatch hend.1⟩

theorem braces_of_extract_else :
    ∃ d, Dialect.brace.withFallback .fail = .ok d ∧
      let t : Source :=
        ⟨["if (x) \x7b", "a(); // \x7d", "\x7d else \x7b", "b();", "\x7d"].map String.toList⟩
      let span : BlockSpan := .ofLines t 0 4 .balanced
      extract t 0 d = some (.ok span) ∧ BracesMatch (spanBraces t d span).flatten := by
  let t : Source :=
    ⟨["if (x) \x7b", "a(); // \x7d", "\x7d else \x7b", "b();", "\x7d"].map String.toList⟩
  let d : Dialect := { Dialect.brace with fallback := .fail, fallback_ne := by decide }
  have hd : Dialect.brace.withFallback .fail = .ok d := rfl
  have h : extract t 0 d = some (.ok (.ofLines t 0 4 .balanced)) := by decide +kernel
  obtain ⟨-, -, hiff, hmatch⟩ := braces_of_extract .fail d hd t 0 _ h rfl
  exact ⟨d, hd, h, hmatch (hiff.2 (by decide +kernel))⟩

/-- A start line that closes a block before it opens one, and a line that closes two blocks where
one is open. -/
theorem not_closesWithin_of_extract :
    let d := Dialect.brace
    let single : Source := ⟨["\x7d else \x7b".toList]⟩
    let double : Source := ⟨["\x7b".toList, "\x7d\x7d\x7b".toList]⟩
    d.withFallback (.window 5) = .ok d ∧
    (extract single 0 d = some (.ok (.ofLines single 0 0 .balanced)) ∧
      ¬ ClosesWithin 0 (spanBraces single d (.ofLines single 0 0 .balanced)).flatten) ∧
    extract double 0 d = some (.ok (.ofLines double 0 1 .balanced)) ∧
      ¬ ClosesWithin 0 (spanBraces double d (.ofLines double 0 1 .balanced)).flatten := by
  intro d single double
  refine ⟨rfl, ⟨?_, ?_⟩, ?_, ?_⟩ <;> decide +kernel

end CodeSpan
