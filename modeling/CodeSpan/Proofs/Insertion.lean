import CodeSpan.Proofs.Extraction
import CodeSpan.Proofs.Stock

/-!
# Extraction is blind to inserted comments

Inserting a chunk of comments after the start line repeats the totals of the line before it and
delays all later totals by the length of the chunk. A block that closes before the chunk closes
where it did, a block that closes later closes as much later as the chunk is long, and a block
that never closes fails with the same totals.
-/

namespace CodeSpan

namespace Source

def insert (t : Source) (i : Nat) (chunk : List (List Char)) : Source :=
  ⟨t.lines.take i ++ chunk ++ t.lines.drop i⟩

variable {t : Source} {start i : Nat} {chunk : List (List Char)}

theorem size_insert (t : Source) (i : Nat) (chunk : List (List Char)) :
    (t.insert i chunk).size = t.size + chunk.length := by
  have hsplit := congrArg List.length (List.take_append_drop i t.lines)
  simp only [size, insert, List.length_append] at hsplit ⊢
  omega

theorem drop_insert (hs : start ≤ i) (hi : i ≤ t.size) :
    (t.insert i chunk).lines.drop start =
      (t.lines.take i).drop start ++ chunk ++ t.lines.drop i := by
  have hlen : start ≤ (t.lines.take i).length := by
    rw [size] at hi
    rw [List.length_take]
    omega
  rw [insert, List.append_assoc, List.drop_append_of_le_length hlen, List.append_assoc]

theorem drop_eq_append (hs : start ≤ i) (hi : i ≤ t.size) :
    t.lines.drop start = (t.lines.take i).drop start ++ t.lines.drop i := by
  have hnone : t.insert i [] = t := by
    rw [insert, List.append_nil, List.take_append_drop]
  rw [← List.append_nil ((t.lines.take i).drop start), ← drop_insert hs hi, hnone]

end Source

namespace BlockSpan

/-- The span in a text into which `size` lines were inserted before line `i`: it takes in the
inserted lines unless it ends before them. -/
def grown (span : BlockSpan) (t : Source) (i size : Nat) : BlockSpan :=
  if span.endLine < i then span else .ofLines t span.startLine (span.endLine + size) span.kind

end BlockSpan

namespace Insertion

/-- The distance without `size` lines inserted at a distance that has the totals of a
distance with them. -/
def origin (place size j : Nat) : Nat :=
  if j < place then j else if j < place + size then place - 1 else j - size

/-- The distance with `size` lines inserted at a distance that has the totals of a distance
without them. -/
def delayed (place size k : Nat) : Nat :=
  if k < place then k else k + size

theorem origin_delayed (place size k : Nat) : origin place size (delayed place size k) = k := by
  unfold origin delayed
  split_ifs <;> omega

theorem origin_lt_of_lt_delayed {place size j k : Nat} (hplace : 0 < place)
    (h : j < delayed place size k) : origin place size j < k := by
  unfold delayed at h
  unfold origin
  split_ifs at h ⊢ <;> omega

end Insertion

open Insertion

namespace Tally

theorem after_of_silent {rules : BlockRules} {lines : List LineClass} (n : Tally)
    (h : ∀ line ∈ lines, rules.opensOn line = 0 ∧ rules.closesOn line = 0) :
    n.after rules lines = n := by
  have hopens : (lines.map rules.opensOn).sum = 0 :=
    List.sum_eq_zero_iff_forall_eq_nat.2 (List.forall_mem_map.2 fun line hline => (h line hline).1)
  have hcloses : (lines.map rules.closesOn).sum = 0 :=
    List.sum_eq_zero_iff_forall_eq_nat.2 (List.forall_mem_map.2 fun line hline => (h line hline).2)
  rw [after, hopens, hcloses]
  rfl

/-- Silent lines in the middle repeat the totals before them and delay the later ones. -/
theorem after_take_insert {rules : BlockRules} {before silent rest : List LineClass} (n : Tally)
    (hne : before ≠ [])
    (h : ∀ line ∈ silent, rules.opensOn line = 0 ∧ rules.closesOn line = 0) (j : Nat) :
    n.after rules ((before ++ silent ++ rest).take (j + 1)) =
      n.after rules ((before ++ rest).take (origin before.length silent.length j + 1)) := by
  have hpos := List.length_pos_of_ne_nil hne
  rw [List.append_assoc, origin]
  split_ifs with hbefore hsilent
  · rw [List.take_append_of_le_length (by omega), List.take_append_of_le_length (by omega)]
  · have hplace : before.length - 1 + 1 = before.length := by omega
    rw [hplace, List.take_left' rfl, List.take_append, List.take_of_length_le (by omega),
      List.take_append_of_le_length (by omega), after_append]
    exact after_of_silent _ fun line hline => h line (List.mem_of_mem_take hline)
  · have hwith : (before ++ (silent ++ rest)).take (j + 1) =
        before ++ (silent ++ rest.take (j + 1 - before.length - silent.length)) := by
      rw [List.take_append, List.take_append, List.take_of_length_le (by omega),
        List.take_of_length_le (by omega)]
    have hwithout : (before ++ rest).take (j - silent.length + 1) =
        before ++ rest.take (j + 1 - before.length - silent.length) := by
      rw [List.take_append, List.take_of_length_le (by omega)]
      congr 2
      omega
    rw [hwith, hwithout, after_append, after_append, after_append, after_of_silent _ h]

end Tally

section Insert

variable {t : Source} {start i : Nat} {d : Dialect} {chunk : List (List Char)}

structure SilentAt (t : Source) (start i : Nat) (d : Dialect) (chunk : List (List Char)) :
    Prop where
  start_lt : start < i
  le_size : i ≤ t.size
  region : d.comments.regionAfter
      (d.comments.regionAfter .outside ((t.lines.take i).drop start)) chunk =
    d.comments.regionAfter .outside ((t.lines.take i).drop start)
  silent : ∀ step ∈ d.comments.scan
    (d.comments.regionAfter .outside ((t.lines.take i).drop start)) chunk, step.1.Silent

theorem exists_blockClasses_insert (h : SilentAt t start i d chunk) :
    ∃ before silent rest, before.length = i - start ∧ silent.length = chunk.length ∧
      (∀ line ∈ silent, line.Silent) ∧ blockClasses t start d = before ++ rest ∧
      blockClasses (t.insert i chunk) start d = before ++ silent ++ rest := by
  have hs := Nat.le_of_lt h.start_lt
  have hi := h.le_size
  let r := d.comments.regionAfter .outside ((t.lines.take i).drop start)
  refine ⟨d.comments.classes ((t.lines.take i).drop start),
    (d.comments.scan r chunk).map (·.1), (d.comments.scan r (t.lines.drop i)).map (·.1),
    ?_, by simp, ?_, ?_, ?_⟩
  · rw [Source.size] at hi
    rw [CommentSyntax.length_classes, List.length_drop, List.length_take, Nat.min_eq_left hi]
  · intro line hline
    obtain ⟨step, hstep, rfl⟩ := List.mem_map.1 hline
    exact h.silent step hstep
  · rw [blockClasses, Source.drop_eq_append hs hi, CommentSyntax.classes_append]
  · rw [blockClasses, Source.drop_insert hs hi, List.append_assoc, CommentSyntax.classes_append,
      CommentSyntax.scan_append, h.region, List.map_append, List.append_assoc]

theorem totals_insert (hsolid : d.Solid) (h : SilentAt t start i d chunk) (j : Nat) :
    totals (t.insert i chunk) start d j =
      totals t start d (origin (i - start) chunk.length j) := by
  obtain ⟨before, silent, rest, hlen, hcount, hsilent, hold, hnew⟩ := exists_blockClasses_insert h
  have hne : before ≠ [] := by
    have hlt := h.start_lt
    intro hnil
    rw [hnil, List.length_nil] at hlen
    omega
  have hrules : startRules (t.insert i chunk) start d = startRules t start d := by
    obtain ⟨first, before', rfl⟩ := List.exists_cons_of_ne_nil hne
    rw [startRules, startRules, hold, hnew]
    rfl
  have hnone : ∀ line ∈ silent, (startRules t start d).1.opensOn line = 0 ∧
      (startRules t start d).1.closesOn line = 0 :=
    fun line hline => (hsolid.selectRules _).counts (hsilent line hline)
  rw [totals, totals, hrules, hold, hnew, Tally.after_take_insert _ hne hnone, hlen, hcount]

theorem closesAt_insert (hsolid : d.Solid) (h : SilentAt t start i d chunk) {k : Nat}
    (hk : ClosesAt t start d k)
    (hopen : d.fallback = .fail ∨ 0 < (totals t start d (i - 1 - start)).opened) :
    ClosesAt (t.insert i chunk) start d (delayed (i - start) chunk.length k) := by
  have hplace : 0 < i - start := Nat.sub_pos_of_lt h.start_lt
  have hrange := hk.inRange
  have hle := h.le_size
  refine ⟨?_, ?_, ?_⟩
  · rw [Source.size_insert]
    unfold delayed
    split_ifs <;> omega
  · rw [totals_insert hsolid h, origin_delayed]
    exact hk.balanced
  · intro j hj
    have hon := hk.goesOn _ (origin_lt_of_lt_delayed hplace hj)
    rw [totals_insert hsolid h]
    refine ⟨hon.1, ?_⟩
    rcases hopen with hfail | hpos
    · rw [hfail, Fallback.exhausted_fail]
    · by_cases hbefore : j < i - start
      · have hj' : origin (i - start) chunk.length j = j := if_pos hbefore
        rw [hj'] at hon ⊢
        exact hon.2
      · -- An opener was counted before the chunk, so the window is out of play from there on.
        have hlate : i - 1 - start ≤ origin (i - start) chunk.length j := by
          unfold origin
          split_ifs <;> omega
        exact Fallback.exhausted_of_opened_pos _ _ (Nat.lt_of_lt_of_le hpos (opened_mono hlate))

theorem not_closesAt_insert (hsolid : d.Solid) (h : SilentAt t start i d chunk)
    (hf : d.fallback = .fail) (hnever : ∀ k, ¬ ClosesAt t start d k) (k : Nat) :
    ¬ ClosesAt (t.insert i chunk) start d k := by
  intro hk
  have hrange := hk.inRange
  rw [Source.size_insert] at hrange
  have hb := hk.balanced
  rw [totals_insert hsolid h] at hb
  have hin : start + origin (i - start) chunk.length k < t.size := by
    have hlt := h.start_lt
    have hle := h.le_size
    unfold origin
    split_ifs <;> omega
  obtain ⟨k', hk'⟩ := exists_closesAt hf ⟨_, hin, hb⟩
  exact hnever k' hk'

theorem Source.join_insert_of_lt {last : Nat} (hlast : last < i) (hi : i ≤ t.size) :
    (t.insert i chunk).join start last = t.join start last := by
  have hlen : last + 1 ≤ (t.lines.take i).length := by
    rw [Source.size] at hi
    rw [List.length_take]
    omega
  rw [Source.join, Source.join, Source.insert, List.append_assoc,
    List.take_append_of_le_length hlen, List.take_take, Nat.min_eq_left hlast]

theorem extract_insert_of_closesAt (hsolid : d.Solid) (h : SilentAt t start i d chunk) {k : Nat}
    (hk : ClosesAt t start d k)
    (hopen : d.fallback = .fail ∨ 0 < (totals t start d (i - 1 - start)).opened) :
    extract (t.insert i chunk) start d =
      some (.ok ((BlockSpan.ofLines t start (start + k) .balanced).grown (t.insert i chunk) i
        chunk.length)) := by
  rw [extract_of_closesAt (closesAt_insert hsolid h hk hopen), BlockSpan.grown, BlockSpan.ofLines,
    BlockSpan.ofLines]
  dsimp only
  by_cases hbefore : start + k < i
  · have hdist : delayed (i - start) chunk.length k = k := if_pos (by omega)
    rw [hdist, if_pos hbefore, Source.join_insert_of_lt hbefore h.le_size]
  · have hdist : delayed (i - start) chunk.length k = k + chunk.length := if_neg (by omega)
    rw [hdist, if_neg hbefore, BlockSpan.ofLines, Nat.add_assoc]

theorem extract_insert_of_never (hsolid : d.Solid) (h : SilentAt t start i d chunk)
    (hf : d.fallback = .fail) (hnever : ∀ k, ¬ ClosesAt t start d k) :
    extract (t.insert i chunk) start d = extract t start d := by
  have hs : start < t.size := Nat.lt_of_lt_of_le h.start_lt h.le_size
  have hs' : start < (t.insert i chunk).size := by
    rw [Source.size_insert]
    omega
  have hlast : origin (i - start) chunk.length ((t.insert i chunk).size - 1 - start) =
      t.size - 1 - start := by
    have hlt := h.start_lt
    have hle := h.le_size
    rw [Source.size_insert]
    unfold origin
    split_ifs <;> omega
  rw [extract_of_fail hs' hf (not_closesAt_insert hsolid h hf hnever),
    extract_of_fail hs hf hnever, totals_insert hsolid h, hlast]

end Insert

/-- In the dialects in stock, comments inserted after the start line move the end of a block
that closes behind them and change nothing else, as long as no window can run out on them. -/
theorem extract_insert_comments (kind : DialectKind) (f : Fallback) (d : Dialect)
    (hd : kind.dialect.withFallback f = .ok d) (t : Source) (start i : Nat)
    (chunk : List (List Char)) (hs : start < i) (hi : i ≤ t.size)
    (hc : d.comments.Chunk
      (d.comments.regionAfter .outside ((t.lines.take i).drop start)) chunk) :
    (f = .fail →
      (∀ span, extract t start d = some (.ok span) →
        extract (t.insert i chunk) start d =
          some (.ok (span.grown (t.insert i chunk) i chunk.length))) ∧
      ∀ e, extract t start d = some (.error e) →
        extract (t.insert i chunk) start d = some (.error e)) ∧
    ∀ span, extract t start d = some (.ok span) → span.kind = .balanced →
      0 < (totals t start d (i - 1 - start)).opened →
      extract (t.insert i chunk) start d =
        some (.ok (span.grown (t.insert i chunk) i chunk.length)) := by
  have hsolid := DialectKind.solid hd
  have hfallback := Dialect.fallback_withFallback hd
  obtain ⟨hregion, hsilent⟩ := hc.silent d.comments_delimited (DialectKind.distinct hd)
  have hat : SilentAt t start i d chunk := ⟨hs, hi, hregion, hsilent⟩
  have hrange : start < t.size := Nat.lt_of_lt_of_le hs hi
  have hx := extraction (d := d) hrange
  refine ⟨fun hf => ⟨fun span hspan => ?_, fun e herror => ?_⟩, fun span hspan hkind hpos => ?_⟩
  · rw [hspan] at hx
    cases hx with
    | balanced hk =>
        exact extract_insert_of_closesAt hsolid hat hk (.inl (hfallback.trans hf))
    | window _ hw =>
        rw [hfallback, hf] at hw
        cases hw
  · rw [herror] at hx
    cases hx with
    | unbalanced hnever =>
        rw [extract_insert_of_never hsolid hat (hfallback.trans hf) hnever, herror]
  · obtain ⟨k, hk, rfl⟩ := closesAt_of_extract hspan hkind
    exact extract_insert_of_closesAt hsolid hat hk (.inr hpos)

theorem extract_insert_comments_keyword :
    ∃ d, DialectKind.keyword.dialect.withFallback (.window 2) = .ok d ∧
      extract (Source.insert ⟨["def f", "g", "end"].map String.toList⟩ 1
        (["=begin end", "def h", "=end end"].map String.toList)) 0 d =
        some (.ok ⟨0, 5, "def f\n=begin end\ndef h\n=end end\ng\nend".toList, .balanced⟩) := by
  let d : Dialect := { Dialect.keyword with fallback := .window 2, fallback_ne := by decide }
  have hd : DialectKind.keyword.dialect.withFallback (.window 2) = .ok d := rfl
  let t : Source := ⟨["def f", "g", "end"].map String.toList⟩
  have hregion : d.comments.regionAfter .outside ((t.lines.take 1).drop 0) = .outside := by
    decide
  have hc : d.comments.Chunk .outside
      (([] ++ d.comments.blockOpen ++ " end".toList) ::
        (["def h".toList] ++ ["=end end".toList])) :=
    .block rfl (by decide) (by decide) (by decide) (by decide) (by decide)
  have he : extract t 0 d = some (.ok ⟨0, 2, "def f\ng\nend".toList, .balanced⟩) := by
    decide +kernel
  exact ⟨d, hd, (extract_insert_comments .keyword _ d hd t 0 1 _ (by decide) (by decide)
    (hregion.symm ▸ hc)).2 _ he rfl (by decide +kernel)⟩

end CodeSpan
