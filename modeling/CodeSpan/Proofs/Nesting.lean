import CodeSpan.Proofs.Extraction
import CodeSpan.Proofs.Stock

/-!
# Well nested lines

Lines are level when a scan leaves them outside every comment, when they never close more than
they have opened so far, and when they close all of it in the end. Where one line opens a block,
level lines follow and one line closes it, the block ends exactly on that line, whatever comes
after it and whatever window stands in for a block that never closes.
-/

namespace CodeSpan

namespace BlockRules

variable {rules : BlockRules}

def opensIn (rules : BlockRules) (lines : List LineClass) : Nat :=
  (lines.map rules.opensOn).sum

def closesIn (rules : BlockRules) (lines : List LineClass) : Nat :=
  (lines.map rules.closesOn).sum

@[simp] theorem opensIn_nil : rules.opensIn [] = 0 := rfl

@[simp] theorem closesIn_nil : rules.closesIn [] = 0 := rfl

@[simp] theorem opensIn_cons (line : LineClass) (lines : List LineClass) :
    rules.opensIn (line :: lines) = rules.opensOn line + rules.opensIn lines := by
  simp [opensIn]

@[simp] theorem closesIn_cons (line : LineClass) (lines : List LineClass) :
    rules.closesIn (line :: lines) = rules.closesOn line + rules.closesIn lines := by
  simp [closesIn]

@[simp] theorem opensIn_append (lines more : List LineClass) :
    rules.opensIn (lines ++ more) = rules.opensIn lines + rules.opensIn more := by
  simp [opensIn]

@[simp] theorem closesIn_append (lines more : List LineClass) :
    rules.closesIn (lines ++ more) = rules.closesIn lines + rules.closesIn more := by
  simp [closesIn]

theorem opensIn_eq_zero {lines : List LineClass} (h : ∀ line ∈ lines, rules.opensOn line = 0) :
    rules.opensIn lines = 0 :=
  List.sum_eq_zero_iff_forall_eq_nat.2 (List.forall_mem_map.2 h)

theorem closesIn_eq_zero {lines : List LineClass} (h : ∀ line ∈ lines, rules.closesOn line = 0) :
    rules.closesIn lines = 0 :=
  List.sum_eq_zero_iff_forall_eq_nat.2 (List.forall_mem_map.2 h)

end BlockRules

namespace CommentSyntax

variable {σ : CommentSyntax} {line : List Char} {lines : List (List Char)}

theorem classes_cons_of_outside (h : (σ.classify .outside line).2 = .outside) :
    σ.classes (line :: lines) = (σ.classify .outside line).1 :: σ.classes lines := by
  rw [classes, scan, h]
  rfl

theorem classes_append_of_outside (h : σ.regionAfter .outside lines = .outside)
    (more : List (List Char)) : σ.classes (lines ++ more) = σ.classes lines ++ σ.classes more := by
  rw [classes_append, h]
  rfl

end CommentSyntax

/-- Read outside comments, the line stays outside and adds so many openers and closers. -/
structure Adds (σ : CommentSyntax) (rules : BlockRules) (line : List Char)
    (opened closed : Nat) : Prop where
  outside : (σ.classify .outside line).2 = .outside
  opens_eq : rules.opensOn (σ.classify .outside line).1 = opened
  closes_eq : rules.closesOn (σ.classify .outside line).1 = closed

/-- Lines that close no more than they have opened at any point, and just as much in the end. -/
structure Level (σ : CommentSyntax) (rules : BlockRules) (lines : List (List Char)) : Prop where
  outside : σ.regionAfter .outside lines = .outside
  closes_le : ∀ k,
    rules.closesIn ((σ.classes lines).take k) ≤ rules.opensIn ((σ.classes lines).take k)
  closes_eq : rules.closesIn (σ.classes lines) = rules.opensIn (σ.classes lines)

namespace Level

variable {σ : CommentSyntax} {rules : BlockRules} {lines more : List (List Char)}

theorem nil : Level σ rules [] where
  outside := rfl
  closes_le := by simp [CommentSyntax.classes, CommentSyntax.scan]
  closes_eq := rfl

theorem of_counts_zero (hregion : σ.regionAfter .outside lines = .outside)
    (h : ∀ line ∈ σ.classes lines, rules.opensOn line = 0 ∧ rules.closesOn line = 0) :
    Level σ rules lines where
  outside := hregion
  closes_le := by
    intro k
    rw [BlockRules.closesIn_eq_zero fun line hline => (h line (List.mem_of_mem_take hline)).2]
    exact Nat.zero_le _
  closes_eq := by
    rw [BlockRules.closesIn_eq_zero fun line hline => (h line hline).2,
      BlockRules.opensIn_eq_zero fun line hline => (h line hline).1]

theorem append (ha : Level σ rules lines) (hb : Level σ rules more) :
    Level σ rules (lines ++ more) where
  outside := by rw [CommentSyntax.regionAfter_append, ha.outside, hb.outside]
  closes_le := by
    intro k
    have hbefore := ha.closes_le k
    have hafter := hb.closes_le (k - (σ.classes lines).length)
    rw [CommentSyntax.classes_append_of_outside ha.outside, List.take_append,
      BlockRules.closesIn_append, BlockRules.opensIn_append]
    omega
  closes_eq := by
    rw [CommentSyntax.classes_append_of_outside ha.outside, BlockRules.closesIn_append,
      BlockRules.opensIn_append, ha.closes_eq, hb.closes_eq]

theorem line {text : List Char} (h : Adds σ rules text 0 0) : Level σ rules [text] := by
  apply of_counts_zero
  · rw [CommentSyntax.regionAfter_cons, h.outside, CommentSyntax.regionAfter_nil]
  · rw [CommentSyntax.classes_cons_of_outside h.outside]
    intro cls hcls
    rw [List.mem_singleton.1 hcls]
    exact ⟨h.opens_eq, h.closes_eq⟩

theorem comments (hσ : σ.Delimited) (hd : σ.Distinct) (hr : rules.Solid)
    (h : σ.Chunk .outside lines) : Level σ rules lines := by
  obtain ⟨hregion, hsilent⟩ := h.silent hσ hd
  apply of_counts_zero hregion
  intro cls hcls
  obtain ⟨step, hstep, rfl⟩ := List.mem_map.1 hcls
  exact hr.counts (hsilent step hstep)

/-- A block around level lines is level. -/
theorem block {opening closing : List Char} (hopening : Adds σ rules opening 1 0)
    (hbody : Level σ rules lines) (hclosing : Adds σ rules closing 0 1) :
    Level σ rules (opening :: (lines ++ [closing])) := by
  have hclasses : σ.classes (opening :: (lines ++ [closing])) =
      (σ.classify .outside opening).1 ::
        (σ.classes lines ++ [(σ.classify .outside closing).1]) := by
    rw [CommentSyntax.classes_cons_of_outside hopening.outside,
      CommentSyntax.classes_append_of_outside hbody.outside,
      CommentSyntax.classes_cons_of_outside hclosing.outside]
    rfl
  refine ⟨?_, ?_, ?_⟩
  · rw [CommentSyntax.regionAfter_cons, hopening.outside, CommentSyntax.regionAfter_append,
      hbody.outside, CommentSyntax.regionAfter_cons, hclosing.outside,
      CommentSyntax.regionAfter_nil]
  · intro k
    rw [hclasses]
    cases k with
    | zero => exact Nat.zero_le _
    | succ k =>
        -- The one closer of the last line is made up for by the opener of the first.
        have hlast : rules.closesIn ([(σ.classify .outside closing).1].take
            (k - (σ.classes lines).length)) ≤ 1 := by
          cases k - (σ.classes lines).length with
          | zero => exact Nat.zero_le _
          | succ n => simp [hclosing.closes_eq]
        have hin := hbody.closes_le k
        rw [List.take_succ_cons, List.take_append, BlockRules.closesIn_cons,
          BlockRules.opensIn_cons, BlockRules.closesIn_append, BlockRules.opensIn_append,
          hopening.opens_eq, hopening.closes_eq]
        omega
  · have heq := hbody.closes_eq
    rw [hclasses, BlockRules.closesIn_cons, BlockRules.opensIn_cons, BlockRules.closesIn_append,
      BlockRules.opensIn_append, BlockRules.closesIn_cons, BlockRules.opensIn_cons,
      hopening.opens_eq, hopening.closes_eq, hclosing.opens_eq, hclosing.closes_eq]
    simp only [BlockRules.closesIn_nil, BlockRules.opensIn_nil]
    omega

end Level

/-- Without an opener of the inline rules, the primary rules count the block. -/
theorem Dialect.selectRules_of_no_inline {d : Dialect} {code : List Char}
    (h : ∀ rules ∈ d.inlineBlocks, rules.countOpens code = 0) :
    d.selectRules (.code code) =
      (d.blocks, if d.implicitOpen = true ∧ d.blocks.countOpens code = 0 then 1 else 0) := by
  have hprimary : (d.blocks.firstOpener? code).isNone = true ↔ d.blocks.countOpens code = 0 := by
    rw [Option.isNone_iff_eq_none, BlockRules.firstOpener?_eq_none_iff]
  have himplicit :
      (if (d.implicitOpen && (d.blocks.firstOpener? code).isNone) = true then 1 else 0) =
        if d.implicitOpen = true ∧ d.blocks.countOpens code = 0 then 1 else 0 := by
    simp only [Bool.and_eq_true, hprimary]
  unfold selectRules
  dsimp only [LineClass.code?, Option.getD_some]
  rw [himplicit]
  split
  · rfl
  · next rules hin =>
      rw [BlockRules.firstOpener?_eq_none_iff.2 (h rules hin)]

/-- A start line that leaves one block of its dialect open: it opens the block itself, or it
counts as lying inside. -/
structure Starts (d : Dialect) (first : List Char) : Prop where
  outside : (d.comments.classify .outside first).2 = .outside
  rules_eq : (d.selectRules (d.comments.classify .outside first).1).1 = d.blocks
  opened_eq : (d.selectRules (d.comments.classify .outside first).1).2 +
    d.blocks.opensOn (d.comments.classify .outside first).1 = 1
  closed_eq : d.blocks.closesOn (d.comments.classify .outside first).1 = 0

section Block

variable {t : Source} {start : Nat} {d : Dialect} {first closing : List Char}
  {body more : List (List Char)}

theorem blockClasses_of_starts (hfirst : Starts d first)
    (hlines : t.lines.drop start = first :: (body ++ closing :: more))
    (hbody : Level d.comments d.blocks body)
    (hclosing : Adds d.comments d.blocks closing 0 1) :
    blockClasses t start d = (d.comments.classify .outside first).1 ::
      (d.comments.classes body ++
        (d.comments.classify .outside closing).1 :: d.comments.classes more) := by
  rw [blockClasses, hlines, CommentSyntax.classes_cons_of_outside hfirst.outside,
    CommentSyntax.classes_append_of_outside hbody.outside,
    CommentSyntax.classes_cons_of_outside hclosing.outside]

/-- A block that is opened once and goes on with level lines closes on the next line with one
closer. -/
theorem closesAt_of_level (hfirst : Starts d first)
    (hlines : t.lines.drop start = first :: (body ++ closing :: more))
    (hbody : Level d.comments d.blocks body)
    (hclosing : Adds d.comments d.blocks closing 0 1) :
    ClosesAt t start d (body.length + 1) := by
  have hclasses := blockClasses_of_starts hfirst hlines hbody hclosing
  have htotals : ∀ k, totals t start d k =
      ⟨1 + d.blocks.opensIn ((d.comments.classes body ++
          (d.comments.classify .outside closing).1 :: d.comments.classes more).take k),
        d.blocks.closesIn ((d.comments.classes body ++
          (d.comments.classify .outside closing).1 :: d.comments.classes more).take k)⟩ := by
    intro k
    rw [totals, startRules, hclasses, List.headD_cons, hfirst.rules_eq, List.take_succ_cons,
      Tally.after_cons, Tally.add_eq, hfirst.opened_eq, hfirst.closed_eq]
    exact congrArg (Tally.mk _) (Nat.zero_add _)
  have hlen : (d.comments.classes body).length = body.length := d.comments.length_classes body
  refine ⟨?_, ?_, ?_⟩
  · have hsize := congrArg List.length hlines
    simp only [List.length_drop, List.length_cons, List.length_append] at hsize
    rw [Source.size]
    omega
  · have heq := hbody.closes_eq
    rw [htotals, List.take_append, List.take_of_length_le (by omega), hlen,
      Nat.add_sub_cancel_left, List.take_succ_cons, List.take_zero]
    simp only [Tally.Balanced, BlockRules.opensIn_append, BlockRules.closesIn_append,
      BlockRules.opensIn_cons, BlockRules.closesIn_cons, BlockRules.opensIn_nil,
      BlockRules.closesIn_nil, hclosing.opens_eq, hclosing.closes_eq]
    omega
  · intro k hk
    have hle := hbody.closes_le k
    rw [htotals, List.take_append_of_le_length (by omega)]
    refine ⟨?_, Fallback.exhausted_of_opened_pos _ _ (by simp only; omega)⟩
    rintro ⟨heq, -⟩
    simp only at heq
    omega

end Block

end CodeSpan
