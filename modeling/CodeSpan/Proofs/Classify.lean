import CodeSpan.Proofs.Occurrence
import CodeSpan.Proofs.Scan

/-!
# Classes of comment lines

A line comment keeps the region. An opening marker behind blanks that is not closed on its line
leads inside, a closing marker leads out again, and a line that opens and closes one comment
between blanks keeps the region and leaves blanks at most. None of these lines holds code.
-/

namespace CodeSpan

namespace Text

theorem trimStart_append {indent rest : List Char} {c : Char} (hi : isBlankText indent = true)
    (hc : isBlank c = false) : trimStart (indent ++ c :: rest) = c :: rest := by
  rw [trimStart, List.dropWhile_append_of_pos (List.all_eq_true.1 hi),
    List.dropWhile_cons_of_neg (by simp [hc])]

theorem notMem_of_isBlankText {s : List Char} {c : Char} (hs : isBlankText s = true)
    (hc : isBlank c = false) : c ∉ s := by
  intro hmem
  rw [List.all_eq_true.1 hs c hmem] at hc
  cases hc

theorem isBlankText_replicate (n : Nat) : isBlankText (List.replicate n ' ') = true := by
  simp only [isBlankText, List.all_eq_true]
  intro c hc
  rw [List.eq_of_mem_replicate hc]
  rfl

theorem isBlankText_of_isInfix {s t : List Char} (h : s <:+: t) (ht : isBlankText t = true) :
    isBlankText s = true :=
  List.all_eq_true.2 fun c hc => List.all_eq_true.1 ht c (h.subset hc)

/-- Nothing but blanks occurs among blanks. -/
theorem occurrences_of_blank {needle s : List Char} (hs : isBlankText s = true)
    (hneedle : isBlankText needle = false) : occurrences needle s = [] := by
  have hne : needle ≠ [] := by
    rintro rfl
    cases hneedle
  rw [occurrences_eq_nil_iff hne]
  intro hin
  rw [isBlankText_of_isInfix hin hs] at hneedle
  cases hneedle

end Text

namespace LineClass

/-- A line without code that could count: a comment, or code of blanks only. -/
def Silent : LineClass → Prop
  | .comment => True
  | .code text => Text.isBlankText text = true

/-- The class of a line of which no character is left but blanks: a comment, or code in which a
stretch with all other characters is blanked out byte for byte. -/
def Blanked (line : List Char) : LineClass → Prop
  | .comment => True
  | .code text => ∃ start stop, Text.isBlankText (line.take start) = true ∧
      Text.isBlankText (line.drop stop) = true ∧ text = CommentSyntax.blank line start stop

end LineClass

namespace CommentSyntax

/-- Line marker and opening marker begin with characters that are not blank, and neither can be
read where the other begins. -/
structure Distinct (σ : CommentSyntax) : Prop where
  line_head : σ.line.head?.all Text.isBlank = false
  open_head : σ.blockOpen.head?.all Text.isBlank = false
  line_apart : ¬ σ.line <+: σ.blockOpen
  open_apart : ¬ σ.blockOpen <+: σ.line

variable {σ : CommentSyntax}

theorem isLineComment_iff {line : List Char} :
    σ.isLineComment line = true ↔ σ.line <+: Text.trimStart line :=
  Text.startsWith_iff

theorem classify_of_lineComment (r : Region) {line : List Char}
    (h : σ.line <+: Text.trimStart line) : σ.classify r line = (.comment, r) := by
  unfold classify
  rw [if_pos (isLineComment_iff.2 h)]

theorem openIndex?_eq_none_iff (hσ : σ.Delimited) {line : List Char} :
    σ.openIndex? line = none ↔ ¬ σ.blockOpen <:+: line := by
  rw [openIndex?, Option.map_eq_none_iff, Text.firstOccurrence?_eq_none_iff hσ.2.1]

theorem closeIndex?_eq_none_iff (hσ : σ.Delimited) {line : List Char} :
    σ.closeIndex? line = none ↔ ¬ σ.blockClose <:+: line := by
  rw [closeIndex?, Option.map_eq_none_iff, Text.lastOccurrence?_eq_none_iff hσ.2.2]

theorem classify_inside_of_unclosed (hσ : σ.Delimited) {line : List Char}
    (h : ¬ σ.blockClose <:+: line) : σ.classify .inside line = (.comment, .inside) := by
  unfold classify
  rw [(closeIndex?_eq_none_iff hσ).2 h]
  split
  · rfl
  · cases σ.openIndex? line <;> rfl

section Markers

variable {line : List Char} {start stop : Nat} (hl : ¬ σ.isLineComment line = true)

include hl

/-- A line on which a block comment opens and closes is code without that comment. -/
theorem classify_of_pair (ho : σ.openIndex? line = some start) (hc : σ.closeIndex? line = some stop)
    (hlt : start < stop) :
    σ.classify .outside line = (.code (σ.cutLineComment (blank line start stop)), .outside) := by
  unfold classify
  rw [if_neg hl, ho, hc]
  exact if_pos hlt

theorem classify_inside_of_pair (ho : σ.openIndex? line = some start)
    (hc : σ.closeIndex? line = some stop) (hlt : start < stop) :
    σ.classify .inside line = (.comment, .inside) := by
  unfold classify
  rw [if_neg hl, ho, hc]
  exact if_pos hlt

/-- A block comment that does not close on the line on which it opens goes on. -/
theorem classify_of_opened (ho : σ.openIndex? line = some start)
    (hno : ∀ stop, σ.closeIndex? line = some stop → stop ≤ start) :
    σ.classify .outside line = σ.enterBlock line start := by
  unfold classify
  rw [if_neg hl, ho]
  cases hc : σ.closeIndex? line with
  | none => rfl
  | some stop => exact if_neg (Nat.not_lt_of_le (hno stop hc))

theorem classify_of_unopened (ho : σ.openIndex? line = none) :
    σ.classify .outside line = (.code (σ.cutLineComment line), .outside) := by
  unfold classify
  rw [if_neg hl, ho]

/-- A closing marker that no opening one comes before leads out of the block comment. -/
theorem classify_inside_of_closeIndex? (hc : σ.closeIndex? line = some stop)
    (hno : ∀ start, σ.openIndex? line = some start → stop ≤ start) :
    σ.classify .inside line = (.comment, .outside) := by
  unfold classify
  rw [if_neg hl, hc]
  cases ho : σ.openIndex? line with
  | none => rfl
  | some start => exact if_neg (Nat.not_lt_of_le (hno start ho))

end Markers

theorem classify_inside_of_closed (hσ : σ.Delimited) {line : List Char}
    (hclose : σ.blockClose <:+: line) (hopen : ¬ σ.blockOpen <:+: line)
    (hline : ¬ σ.line <+: Text.trimStart line) :
    σ.classify .inside line = (.comment, .outside) := by
  rw [← isLineComment_iff] at hline
  cases hc : σ.closeIndex? line with
  | none => exact absurd hclose ((closeIndex?_eq_none_iff hσ).1 hc)
  | some stop =>
      apply classify_inside_of_closeIndex? hline hc
      intro start ho
      rw [(openIndex?_eq_none_iff hσ).2 hopen] at ho
      cases ho

section Unmarked

variable {line : List Char}

theorem cutLineComment_of_unmarked (hσ : σ.Delimited) (h : ¬ σ.line <:+: line) :
    σ.cutLineComment line = line := by
  rw [cutLineComment, (Text.occurrences_eq_nil_iff hσ.1).2 h]
  rfl

theorem not_isLineComment_of_unmarked (h : ¬ σ.line <:+: line) :
    ¬ σ.isLineComment line = true := by
  rw [isLineComment_iff]
  intro hp
  exact h (hp.isInfix.trans (List.dropWhile_suffix _).isInfix)

theorem classify_of_unmarked (hσ : σ.Delimited) (hline : ¬ σ.line <:+: line)
    (hopen : ¬ σ.blockOpen <:+: line) :
    σ.classify .outside line = (.code line, .outside) := by
  rw [classify_of_unopened (not_isLineComment_of_unmarked hline)
    ((openIndex?_eq_none_iff hσ).2 hopen), cutLineComment_of_unmarked hσ hline]

theorem cutLineComment_of_firstOccurrence? {o : Text.Occurrence}
    (hfirst : Text.firstOccurrence? σ.line line = some o) (hstarts : σ.startsLineComment o = true) :
    σ.cutLineComment line = o.before := by
  obtain ⟨more, hmore⟩ := List.head?_eq_some_iff.1 hfirst
  rw [cutLineComment, hmore, List.find?_cons_of_pos hstarts]

/-- A line comment behind code that does not have the first character of a line marker. -/
theorem cutLineComment_append {before after needle : List Char} {c : Char}
    (hl : σ.line = c :: needle) (hc : c ∉ before)
    (hstarts : σ.startsLineComment ⟨before, after⟩ = true) :
    σ.cutLineComment (before ++ σ.line ++ after) = before := by
  have hfirst : Text.firstOccurrence? σ.line (before ++ σ.line ++ after) =
      some ⟨before, after⟩ := by
    rw [hl]
    exact Text.firstOccurrence?_append hc
  exact cutLineComment_of_firstOccurrence? hfirst hstarts

end Unmarked

section Opening

variable {indent rest : List Char}

theorem Distinct.open_eq (hd : σ.Distinct) :
    ∃ c needle, σ.blockOpen = c :: needle ∧ Text.isBlank c = false := by
  cases ho : σ.blockOpen with
  | nil => simpa [ho] using hd.open_head
  | cons c needle => exact ⟨c, needle, rfl, by simpa [ho] using hd.open_head⟩

theorem Distinct.line_eq (hd : σ.Distinct) :
    ∃ c needle, σ.line = c :: needle ∧ Text.isBlank c = false := by
  cases hl : σ.line with
  | nil => simpa [hl] using hd.line_head
  | cons c needle => exact ⟨c, needle, rfl, by simpa [hl] using hd.line_head⟩

theorem Distinct.not_line_at_open (hd : σ.Distinct) : ¬ σ.line <+: σ.blockOpen ++ rest := by
  intro h
  rcases List.prefix_or_prefix_of_prefix h (List.prefix_append σ.blockOpen rest) with hp | hp
  · exact hd.line_apart hp
  · exact hd.open_apart hp

theorem not_isLineComment_of_open (hd : σ.Distinct) (hi : Text.isBlankText indent = true) :
    ¬ σ.isLineComment (indent ++ σ.blockOpen ++ rest) = true := by
  obtain ⟨c, needle, ho, hc⟩ := hd.open_eq
  have htrim : Text.trimStart (indent ++ σ.blockOpen ++ rest) = σ.blockOpen ++ rest := by
    rw [List.append_assoc, ho, List.cons_append, Text.trimStart_append hi hc]
  rw [isLineComment_iff, htrim]
  exact hd.not_line_at_open

theorem openIndex?_of_open (hd : σ.Distinct) (hi : Text.isBlankText indent = true) :
    σ.openIndex? (indent ++ σ.blockOpen ++ rest) = some indent.length := by
  obtain ⟨c, needle, ho, hc⟩ := hd.open_eq
  rw [openIndex?, ho, Text.firstOccurrence?_append (Text.notMem_of_isBlankText hi hc)]
  rfl

/-- No line marker occurs before or at the opening marker of a line. -/
theorem length_lt_of_mem_occurrences (hd : σ.Distinct) (hi : Text.isBlankText indent = true)
    {o : Text.Occurrence} (ho : o ∈ Text.occurrences σ.line (indent ++ σ.blockOpen ++ rest)) :
    indent.length < o.before.length := by
  have happ := Text.eq_append_of_mem_occurrences ho
  rw [List.append_assoc, List.append_assoc, List.append_eq_append_iff] at happ
  rcases happ with ⟨more, hbefore, hrest⟩ | ⟨more, hindent, hline⟩
  · cases more with
    | nil => exact absurd ⟨o.after, hrest.symm⟩ hd.not_line_at_open
    | cons x more =>
        rw [hbefore, List.length_append, List.length_cons]
        omega
  · obtain ⟨c, needle, hl, hc⟩ := hd.line_eq
    cases more with
    | nil => exact absurd ⟨o.after, hline⟩ hd.not_line_at_open
    | cons x more =>
        rw [hl] at hline
        have hx : c = x := (List.cons.inj hline).1
        have hmem : c ∈ indent := by rw [hindent, hx]; simp
        exact absurd hmem (Text.notMem_of_isBlankText hi hc)

theorem classify_of_unclosed_open (hσ : σ.Delimited) (hd : σ.Distinct)
    (hi : Text.isBlankText indent = true)
    (hclose : ¬ σ.blockClose <:+: indent ++ σ.blockOpen ++ rest) :
    σ.classify .outside (indent ++ σ.blockOpen ++ rest) = (.comment, .inside) := by
  have hlong : indent.length < (σ.cutLineComment (indent ++ σ.blockOpen ++ rest)).length := by
    rw [cutLineComment]
    split
    · next o ho => exact length_lt_of_mem_occurrences hd hi (List.mem_of_find?_eq_some ho)
    · obtain ⟨c, needle, ho, -⟩ := hd.open_eq
      simp [ho]
  have htake : (indent ++ σ.blockOpen ++ rest).take indent.length = indent := by
    rw [List.append_assoc, List.take_left' rfl]
  have hno : ∀ stop, σ.closeIndex? (indent ++ σ.blockOpen ++ rest) = some stop →
      stop ≤ indent.length := by
    intro stop hc
    rw [(closeIndex?_eq_none_iff hσ).2 hclose] at hc
    cases hc
  rw [classify_of_opened (not_isLineComment_of_open hd hi) (openIndex?_of_open hd hi) hno,
    enterBlock, if_neg (Nat.not_le_of_lt hlong), htake, if_pos hi]

end Opening

section ClosedBlock

variable {indent body tail : List Char}

theorem le_closeIndex? (hσ : σ.Delimited) (before after : List Char) :
    ∃ stop, σ.closeIndex? (before ++ σ.blockClose ++ after) = some stop ∧
      (before ++ σ.blockClose).length ≤ stop := by
  cases hl : Text.lastOccurrence? σ.blockClose (before ++ σ.blockClose ++ after) with
  | none => exact absurd ⟨before, after, rfl⟩ ((Text.lastOccurrence?_eq_none_iff hσ.2.2).1 hl)
  | some o =>
      refine ⟨o.before.length + σ.blockClose.length, by rw [closeIndex?, hl]; rfl, ?_⟩
      have hle := Text.length_le_of_lastOccurrence? hσ.2.2 hl
      rw [List.length_append]
      omega

theorem cutLineComment_of_blank (hd : σ.Distinct) {code : List Char}
    (h : Text.isBlankText code = true) : σ.cutLineComment code = code := by
  obtain ⟨c, needle, hl, hc⟩ := hd.line_eq
  have hline : Text.isBlankText σ.line = false := by
    rw [hl, Text.isBlankText, List.all_cons, hc, Bool.false_and]
  rw [cutLineComment, Text.occurrences_of_blank h hline]
  rfl

theorem isBlankText_blank {start stop : Nat} {line : List Char}
    (hstart : Text.isBlankText (line.take start) = true)
    (hstop : Text.isBlankText (line.drop stop) = true) :
    Text.isBlankText (blank line start stop) = true := by
  rw [blank, Text.isBlankText_append, Text.isBlankText_append, hstart, hstop,
    Text.isBlankText_replicate]
  rfl

theorem silent_of_blanked {line : List Char} {cls : LineClass} (h : cls.Blanked line) :
    cls.Silent := by
  cases cls with
  | comment => trivial
  | code text =>
      obtain ⟨start, stop, hstart, hstop, rfl⟩ := h
      exact isBlankText_blank hstart hstop

theorem classify_of_closedBlock (hσ : σ.Delimited) (hd : σ.Distinct) (r : Region)
    (hi : Text.isBlankText indent = true) (ht : Text.isBlankText tail = true) :
    (σ.classify r (indent ++ σ.blockOpen ++ body ++ σ.blockClose ++ tail)).2 = r ∧
      (σ.classify r (indent ++ σ.blockOpen ++ body ++ σ.blockClose ++ tail)).1.Blanked
        (indent ++ σ.blockOpen ++ body ++ σ.blockClose ++ tail) := by
  obtain ⟨stop, hclose, hstop⟩ := le_closeIndex? hσ (indent ++ σ.blockOpen ++ body) tail
  have hassoc : indent ++ σ.blockOpen ++ body ++ σ.blockClose ++ tail =
      indent ++ σ.blockOpen ++ (body ++ σ.blockClose ++ tail) := by
    simp only [List.append_assoc]
  have hopen : σ.openIndex? (indent ++ σ.blockOpen ++ body ++ σ.blockClose ++ tail) =
      some indent.length := by
    rw [hassoc, openIndex?_of_open hd hi]
  have hline : ¬ σ.isLineComment
      (indent ++ σ.blockOpen ++ body ++ σ.blockClose ++ tail) = true := by
    rw [hassoc]
    exact not_isLineComment_of_open hd hi
  have hlt : indent.length < stop := by
    have hpos := List.length_pos_of_ne_nil hσ.2.1
    simp only [List.length_append] at hstop
    omega
  cases r with
  | inside =>
      rw [classify_inside_of_pair hline hopen hclose hlt]
      exact ⟨rfl, trivial⟩
  | outside =>
      rw [classify_of_pair hline hopen hclose hlt]
      have htake : (indent ++ σ.blockOpen ++ body ++ σ.blockClose ++ tail).take indent.length =
          indent := by
        rw [hassoc, List.append_assoc, List.take_left' rfl]
      have hdrop : (indent ++ σ.blockOpen ++ body ++ σ.blockClose ++ tail).drop stop <:+ tail := by
        rw [List.drop_append, List.drop_eq_nil_of_le hstop, List.nil_append]
        exact List.drop_suffix _ _
      have hleft := htake.symm ▸ hi
      have hright := Text.isBlankText_of_isInfix hdrop.isInfix ht
      exact ⟨rfl, indent.length, stop, hleft, hright,
        cutLineComment_of_blank hd (isBlankText_blank hleft hright)⟩

end ClosedBlock

end CommentSyntax
end CodeSpan
