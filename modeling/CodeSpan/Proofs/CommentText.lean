import CodeSpan.Locate.Search
import CodeSpan.Proofs.BlankedLine

/-!
# Comment text on a line of code

On a line of code a scan removes three kinds of text: a block comment that opens and closes on
the line, a line comment behind code, and all that follows a block comment left open. The first
is blanked out, byte for byte, and the other two are cut off, so a byte offset means the same in
the code and in the line. What is read in the code apart from the spaces stands in the line at
the same offset, and outside every comment.
-/

namespace CodeSpan

namespace Text

variable {before needle after left spaces right : List Char}

theorem byteLength_le_of_prefix {s t : List Char} (h : s <+: t) : byteLength s ≤ byteLength t := by
  obtain ⟨rest, rfl⟩ := h
  rw [byteLength_append]
  exact Nat.le_add_right _ _

theorem byteLength_pos {s : List Char} (h : s ≠ []) : 0 < byteLength s :=
  Nat.lt_of_lt_of_le (List.length_pos_of_ne_nil h) (length_le_byteLength s)

theorem byteAt?_append_left {s t : List Char} {offset : Nat} (h : offset < byteLength s) :
    byteAt? (s ++ t) offset = byteAt? s offset := by
  rw [byteAt?, byteAt?, utf8Bytes_append,
    List.getElem?_append_left (by rwa [length_utf8Bytes])]

theorem byteAt?_append_right {s t : List Char} {offset : Nat} (h : byteLength s ≤ offset) :
    byteAt? (s ++ t) offset = byteAt? t (offset - byteLength s) := by
  rw [byteAt?, byteAt?, utf8Bytes_append,
    List.getElem?_append_right (by rwa [length_utf8Bytes]), length_utf8Bytes]

@[simp] theorem byteLength_spaces (n : Nat) : byteLength (List.replicate n ' ') = n := by
  rw [← length_utf8Bytes, utf8Bytes_spaces, List.length_replicate]

/-- A text that shares no character with a stretch stands on one side of it. -/
theorem apart_of_append_eq (hne : spaces ≠ []) (hneedle : needle ≠ [])
    (hapart : ∀ c ∈ spaces, c ∉ needle)
    (h : left ++ spaces ++ right = before ++ needle ++ after) :
    (∃ gap, left = before ++ needle ++ gap ∧ after = gap ++ spaces ++ right) ∨
      ∃ gap, right = gap ++ needle ++ after ∧ before = left ++ spaces ++ gap := by
  have hpos := List.length_pos_of_ne_nil hne
  have hpos' := List.length_pos_of_ne_nil hneedle
  have hthis : left ++ spaces <+: left ++ spaces ++ right := List.prefix_append _ _
  have hthat : before ++ needle <+: left ++ spaces ++ right := h ▸ List.prefix_append _ _
  by_cases hleft : before.length + needle.length ≤ left.length
  · obtain ⟨gap, hgap⟩ : before ++ needle <+: left :=
      List.prefix_of_prefix_length_le hthat ((List.prefix_append _ _).trans hthis)
        (by rwa [List.length_append])
    refine .inl ⟨gap, hgap.symm, ?_⟩
    rw [← hgap] at h
    simp only [List.append_assoc, List.append_cancel_left_eq] at h
    rw [← h, List.append_assoc]
  · by_cases hright : left.length + spaces.length ≤ before.length
    · obtain ⟨gap, hgap⟩ : left ++ spaces <+: before :=
        List.prefix_of_prefix_length_le hthis ((List.prefix_append _ _).trans hthat)
          (by rwa [List.length_append])
      refine .inr ⟨gap, ?_, hgap.symm⟩
      rw [← hgap] at h
      simp only [List.append_assoc, List.append_cancel_left_eq] at h
      rw [h, List.append_assoc]
    · -- The first place that lies in both holds a character of both.
      obtain ⟨i, hi⟩ : ∃ i, i = max left.length before.length := ⟨_, rfl⟩
      have hin : i - left.length < spaces.length := by omega
      have hin' : i - before.length < needle.length := by omega
      have hget : (left ++ spaces ++ right)[i]? = (before ++ needle ++ after)[i]? := by rw [h]
      rw [List.append_assoc, List.append_assoc, List.getElem?_append_right (by omega),
        List.getElem?_append_left hin, List.getElem?_append_right (by omega),
        List.getElem?_append_left hin', List.getElem?_eq_getElem hin,
        List.getElem?_eq_getElem hin', Option.some.injEq] at hget
      have hmem := List.getElem_mem hin
      rw [hget] at hmem
      exact absurd (List.getElem_mem hin') (hapart _ hmem)

end Text

namespace CommentSyntax

/-- A line with its block comment blanked out, if one opens and closes on it. -/
def withoutBlock (σ : CommentSyntax) (line : List Char) : List Char :=
  match σ.openIndex? line, σ.closeIndex? line with
  | some start, some stop => if start < stop then blank line start stop else line
  | _, _ => line

/-- The byte offsets of a line of code that belong to comments. -/
inductive Removes (σ : CommentSyntax) (line : List Char) : Nat → Prop where
  | block {start stop offset : Nat} (opens : σ.openIndex? line = some start)
      (closes : σ.closeIndex? line = some stop)
      (start_le : Text.byteLength (line.take start) ≤ offset)
      (lt_stop : offset < Text.byteLength (line.take stop)) : Removes σ line offset
  | trailing {o : Text.Occurrence} {offset : Nat}
      (marker : o ∈ Text.occurrences σ.line (σ.withoutBlock line))
      (starts : σ.startsLineComment o = true) (behind : Text.byteLength o.before ≤ offset) :
      Removes σ line offset
  | unclosed {start offset : Nat} (opens : σ.openIndex? line = some start)
      (unclosed : ∀ stop ∈ σ.closeIndex? line, stop ≤ start)
      (behind : Text.byteLength (line.take start) ≤ offset) : Removes σ line offset

/-- How the code of a line comes about: `body` is blanked out, and `tail`, which begins a
comment, is cut off. -/
structure Stripped (σ : CommentSyntax) (line code left body right tail : List Char) : Prop where
  line_eq : line = left ++ body ++ right
  code_eq : code ++ tail = left ++ List.replicate (Text.byteLength body) ' ' ++ right
  opens : body ≠ [] → σ.openIndex? line = some left.length
  closes : body ≠ [] → σ.closeIndex? line = some (left.length + body.length)
  tail_head : tail = [] ∨ tail.head? = σ.line.head? ∨ tail.head? = σ.blockOpen.head?
  removes : ∀ offset, σ.Removes line offset →
    Text.byteLength left ≤ offset ∧ offset < Text.byteLength left + Text.byteLength body ∨
      Text.byteLength code ≤ offset

variable {σ : CommentSyntax} {line code left body right tail : List Char} {start stop offset : Nat}

theorem withoutBlock_of_pair (ho : σ.openIndex? line = some start)
    (hc : σ.closeIndex? line = some stop) (hlt : start < stop) :
    σ.withoutBlock line = blank line start stop := by
  rw [withoutBlock, ho, hc]
  exact if_pos hlt

def Unpaired (σ : CommentSyntax) (line : List Char) : Prop :=
  ∀ start stop, σ.openIndex? line = some start → σ.closeIndex? line = some stop → stop ≤ start

theorem unpaired_or_pair (σ : CommentSyntax) (line : List Char) :
    σ.Unpaired line ∨ ∃ start stop, σ.openIndex? line = some start ∧
      σ.closeIndex? line = some stop ∧ start < stop := by
  by_cases h : σ.Unpaired line
  · exact .inl h
  · unfold Unpaired at h
    push Not at h
    exact .inr h

theorem withoutBlock_of_unpaired (h : σ.Unpaired line) : σ.withoutBlock line = line := by
  rw [withoutBlock]
  split
  · next start stop ho hc => exact if_neg (Nat.not_lt_of_le (h start stop ho hc))
  · rfl

theorem blockOpen_prefix_drop (ho : σ.openIndex? line = some start) :
    σ.blockOpen <+: line.drop start := by
  obtain ⟨o, hfirst, rfl⟩ := Option.map_eq_some_iff.1 ho
  exact (Text.firstAt_of_firstOccurrence? hfirst).here

theorem closeIndex?_le_length (hc : σ.closeIndex? line = some stop) : stop ≤ line.length := by
  obtain ⟨o, hlast, rfl⟩ := Option.map_eq_some_iff.1 hc
  have hline := congrArg List.length (Text.eq_append_of_lastOccurrence? hlast)
  simp only [List.length_append] at hline
  omega

theorem exists_cut (hσ : σ.Delimited) (text : List Char) :
    ∃ tail, σ.cutLineComment text ++ tail = text ∧ (tail = [] ∨ tail.head? = σ.line.head?) := by
  obtain ⟨c, marker, hl⟩ := List.exists_cons_of_ne_nil hσ.1
  rw [cutLineComment]
  split
  · next o ho =>
      have happ := Text.eq_append_of_mem_occurrences (List.mem_of_find?_eq_some ho)
      exact ⟨σ.line ++ o.after, by rw [← List.append_assoc, ← happ], .inr (by simp [hl])⟩
  · exact ⟨[], List.append_nil _, .inl rfl⟩

theorem byteLength_cutLineComment_le {text : List Char} {o : Text.Occurrence}
    (ho : o ∈ Text.occurrences σ.line text) (hs : σ.startsLineComment o = true) :
    Text.byteLength (σ.cutLineComment text) ≤ Text.byteLength o.before := by
  rw [cutLineComment]
  split
  · next first hfirst =>
      exact Text.byteLength_le_of_prefix (Text.before_prefix_of_find? hfirst ho hs)
  · next hnone =>
      rw [List.find?_eq_none] at hnone
      exact absurd hs (hnone o ho)

theorem byteLength_take_le (line : List Char) {i j : Nat} (h : i ≤ j) :
    Text.byteLength (line.take i) ≤ Text.byteLength (line.take j) :=
  Text.byteLength_le_of_prefix (List.take_prefix_take_left h)

theorem stripped_of_pair (hσ : σ.Delimited) (ho : σ.openIndex? line = some start)
    (hc : σ.closeIndex? line = some stop) (hlt : start < stop) :
    ∃ left body right tail,
      σ.Stripped line (σ.cutLineComment (blank line start stop)) left body right tail := by
  have hlen := closeIndex?_le_length hc
  have hsplit : line.take stop = line.take start ++ (line.take stop).drop start := by
    have htake := List.take_append_drop start (line.take stop)
    rwa [List.take_take, Nat.min_eq_left (Nat.le_of_lt hlt), eq_comm] at htake
  obtain ⟨tail, hcut, htail⟩ := exists_cut hσ (blank line start stop)
  refine ⟨line.take start, (line.take stop).drop start, line.drop stop, tail, ?_, hcut, ?_, ?_,
    htail.imp_right .inl, ?_⟩
  · rw [← hsplit, List.take_append_drop]
  · intro _
    rw [ho, List.length_take, Nat.min_eq_left (by omega)]
  · intro _
    rw [hc, ← List.length_append, ← hsplit, List.length_take, Nat.min_eq_left hlen]
  · intro offset hr
    cases hr with
    | block opens closes start_le lt_stop =>
        rw [ho, Option.some.injEq] at opens
        rw [hc, Option.some.injEq] at closes
        subst opens closes
        rw [hsplit, Text.byteLength_append] at lt_stop
        exact .inl ⟨start_le, lt_stop⟩
    | trailing marker starts behind =>
        rw [withoutBlock_of_pair ho hc hlt] at marker
        exact .inr (Nat.le_trans (byteLength_cutLineComment_le marker starts) behind)
    | unclosed opens unclosed behind =>
        rw [ho, Option.some.injEq] at opens
        subst opens
        exact absurd (unclosed stop hc) (Nat.not_le_of_lt hlt)

theorem stripped_of_unpaired (h : σ.Unpaired line) (hcode : code ++ tail = line)
    (htail : tail = [] ∨ tail.head? = σ.line.head? ∨ tail.head? = σ.blockOpen.head?)
    (hcut : Text.byteLength code ≤ Text.byteLength (σ.cutLineComment line))
    (hopen : ∀ start, σ.openIndex? line = some start →
      Text.byteLength code ≤ Text.byteLength (line.take start)) :
    σ.Stripped line code line [] [] tail := by
  refine ⟨by simp, by simp [hcode], fun hne => absurd rfl hne, fun hne => absurd rfl hne, htail, ?_⟩
  intro offset hr
  right
  cases hr with
  | block opens closes start_le lt_stop =>
      have hle := byteLength_take_le line (h _ _ opens closes)
      omega
  | trailing marker starts behind =>
      rw [withoutBlock_of_unpaired h] at marker
      have hle := byteLength_cutLineComment_le marker starts
      omega
  | unclosed opens unclosed behind => exact Nat.le_trans (hopen _ opens) behind

theorem stripped_cut (hσ : σ.Delimited) (h : σ.Unpaired line)
    (hopen : ∀ start, σ.openIndex? line = some start → (σ.cutLineComment line).length ≤ start) :
    ∃ tail, σ.Stripped line (σ.cutLineComment line) line [] [] tail := by
  obtain ⟨tail, hcut, htail⟩ := exists_cut hσ line
  refine ⟨tail, stripped_of_unpaired h hcut (htail.imp_right .inl) (Nat.le_refl _) ?_⟩
  intro start ho
  have hprefix : σ.cutLineComment line <+: line.take start :=
    List.prefix_take_iff.2 ⟨⟨tail, hcut⟩, hopen start ho⟩
  exact Text.byteLength_le_of_prefix hprefix

theorem stripped_enterBlock (hσ : σ.Delimited) (h : σ.Unpaired line)
    (ho : σ.openIndex? line = some start) (hcode : (σ.enterBlock line start).1 = .code code) :
    ∃ tail, σ.Stripped line code line [] [] tail := by
  have honly : ∀ start', σ.openIndex? line = some start' → start' = start := fun start' ho' =>
    Option.some.inj (ho'.symm.trans ho)
  unfold enterBlock at hcode
  dsimp only at hcode
  split_ifs at hcode with hle hblank
  · cases hcode
    exact stripped_cut hσ h fun start' ho' => (honly start' ho').symm ▸ hle
  · cases hcode
    obtain ⟨c, marker, hopen⟩ := List.exists_cons_of_ne_nil hσ.2.1
    obtain ⟨rest, hrest⟩ := blockOpen_prefix_drop ho
    obtain ⟨tail, hcut, -⟩ := exists_cut hσ line
    have hprefix : line.take start <+: σ.cutLineComment line := by
      refine List.prefix_of_prefix_length_le (List.take_prefix _ _) ⟨tail, hcut⟩ ?_
      rw [List.length_take]
      omega
    refine ⟨line.drop start, stripped_of_unpaired h (List.take_append_drop _ _) ?_
      (Text.byteLength_le_of_prefix hprefix) ?_⟩
    · exact .inr (.inr (by rw [← hrest, hopen]; rfl))
    · intro start' ho'
      rw [honly start' ho']

/-- Every line of code is stripped of its comments. -/
theorem exists_stripped (hσ : σ.Delimited) {r : Region}
    (h : (σ.classify r line).1 = .code code) :
    ∃ left body right tail, σ.Stripped line code left body right tail := by
  have hout := σ.region_eq_outside_of_code h
  subst hout
  by_cases hl : σ.isLineComment line = true
  · rw [classify_of_lineComment _ (isLineComment_iff.1 hl)] at h
    cases h
  rcases σ.unpaired_or_pair line with hun | ⟨start, stop, ho, hc, hlt⟩
  · cases ho : σ.openIndex? line with
    | none =>
        rw [classify_of_unopened hl ho] at h
        cases h
        obtain ⟨tail, ht⟩ := stripped_cut hσ hun fun start ho' => by rw [ho] at ho'; cases ho'
        exact ⟨_, _, _, _, ht⟩
    | some start =>
        rw [classify_of_opened hl ho fun stop hc => hun start stop ho hc] at h
        obtain ⟨tail, ht⟩ := stripped_enterBlock hσ hun ho h
        exact ⟨_, _, _, _, ht⟩
  · rw [classify_of_pair hl ho hc hlt] at h
    cases h
    exact stripped_of_pair hσ ho hc hlt

theorem exists_stripped_of_classes (hσ : σ.Delimited) {lines : List (List Char)} {i : Nat}
    (hline : lines[i]? = some line) (hcode : (σ.classes lines)[i]? = some (.code code)) :
    ∃ left body right tail, σ.Stripped line code left body right tail := by
  rw [σ.getElem?_classes, hline, Option.map_some, Option.some.injEq] at hcode
  exact exists_stripped hσ hcode

namespace Stripped

variable {before needle after : List Char}

/-- What follows a place in the code follows it on the line, or else a comment begins there. -/
theorem head?_append_tail (h : σ.Stripped line code left body right tail) (after : List Char) :
    (after ++ tail).head? = after.head? ∨ (after ++ tail).head? = σ.line.head? ∨
      (after ++ tail).head? = σ.blockOpen.head? := by
  cases after with
  | nil =>
      rcases h.tail_head with rfl | hhead
      · exact .inl rfl
      · exact .inr hhead
  | cons c after => exact .inl rfl

theorem head?_body (h : σ.Stripped line code left body right tail) (hne : body ≠ [])
    (hσ : σ.Delimited) : (body ++ right).head? = σ.blockOpen.head? := by
  have hprefix := blockOpen_prefix_drop (h.opens hne)
  rw [h.line_eq, List.append_assoc, List.drop_left] at hprefix
  obtain ⟨rest, hrest⟩ := hprefix
  rw [← hrest, List.head?_append_of_ne_nil _ hσ.2.1]

theorem not_removes (h : σ.Stripped line code left body right tail)
    (hin : offset < Text.byteLength code)
    (hout : offset < Text.byteLength left ∨
      Text.byteLength left + Text.byteLength body ≤ offset) : ¬ σ.Removes line offset := by
  intro hr
  rcases h.removes offset hr with ⟨hstart, hstop⟩ | hlong <;> omega

/-- What stands in the code and holds no space stands in the line at the same offset, outside
every comment. -/
theorem exists_occurrence (h : σ.Stripped line code left body right tail) (hσ : σ.Delimited)
    (hne : needle ≠ []) (hspace : ' ' ∉ needle) (hcode : code = before ++ needle ++ after) :
    ∃ before' after', line = before' ++ needle ++ after' ∧
      Text.byteLength before' = Text.byteLength before ∧
      (∀ offset, Text.byteLength before ≤ offset →
        offset < Text.byteLength before + Text.byteLength needle → ¬ σ.Removes line offset) ∧
      (after'.head? = after.head? ∨ after'.head? = σ.line.head? ∨
        after'.head? = σ.blockOpen.head?) := by
  have hlong : Text.byteLength before + Text.byteLength needle ≤ Text.byteLength code := by
    rw [hcode, Text.byteLength_append, Text.byteLength_append]
    exact Nat.le_add_right _ _
  have heq : left ++ List.replicate (Text.byteLength body) ' ' ++ right =
      before ++ needle ++ (after ++ tail) := by
    rw [← h.code_eq, hcode, List.append_assoc _ after]
  by_cases hbody : body = []
  · subst hbody
    have hline : line = before ++ needle ++ (after ++ tail) := by
      rw [h.line_eq, ← heq]
      rfl
    refine ⟨before, after ++ tail, hline, rfl, ?_, h.head?_append_tail after⟩
    intro offset _ hlt
    exact h.not_removes (by omega) (by rw [Text.byteLength_nil]; omega)
  · have hspaces : List.replicate (Text.byteLength body) ' ' ≠ [] := by
      have hpos := Text.byteLength_pos hbody
      rw [ne_eq, List.replicate_eq_nil_iff]
      omega
    have hapart : ∀ c ∈ List.replicate (Text.byteLength body) ' ', c ∉ needle := fun c hc =>
      List.eq_of_mem_replicate hc ▸ hspace
    -- The needle holds no space, so it stands on one side of the blanked stretch.
    rcases Text.apart_of_append_eq hspaces hne hapart heq with
      ⟨gap, hleft, hafter⟩ | ⟨gap, hright, hbefore⟩
    · have hline : line = before ++ needle ++ (gap ++ (body ++ right)) := by
        rw [h.line_eq, hleft]
        simp only [List.append_assoc]
      refine ⟨before, _, hline, rfl, ?_, ?_⟩
      · intro offset _ hlt
        refine h.not_removes (by omega) (.inl ?_)
        rw [hleft, Text.byteLength_append, Text.byteLength_append]
        omega
      · cases gap with
        | nil => exact .inr (.inr (h.head?_body hbody hσ))
        | cons c gap =>
            have hhead := h.head?_append_tail after
            rw [hafter] at hhead
            exact hhead
    · have hline : line = (left ++ body ++ gap) ++ needle ++ (after ++ tail) := by
        rw [h.line_eq, hright]
        simp only [List.append_assoc]
      have hlength : Text.byteLength (left ++ body ++ gap) = Text.byteLength before := by
        rw [hbefore]
        simp only [Text.byteLength_append, Text.byteLength_spaces]
      refine ⟨_, _, hline, hlength, ?_, h.head?_append_tail after⟩
      intro offset hle hlt
      refine h.not_removes (by omega) (.inr ?_)
      rw [← Text.byteLength_append]
      rw [Text.byteLength_append (left ++ body)] at hlength
      omega

theorem not_removes_of_startsInCode (h : σ.Stripped line code left body right tail) {c : Char}
    (hline : line = before ++ c :: after) (hc : c ≠ ' ')
    (hstarts : SearchPlan.startsInCode line code (Text.byteLength before) = true) :
    ¬ σ.Removes line (Text.byteLength before) := by
  rw [SearchPlan.startsInCode, Bool.and_eq_true, decide_eq_true_eq, beq_iff_eq] at hstarts
  obtain ⟨hin, hbyte⟩ := hstarts
  intro hr
  rcases h.removes _ hr with ⟨hstart, hstop⟩ | hlong
  · have hspace : Text.byteAt? code (Text.byteLength before) = some 0x20 := by
      rw [← Text.byteAt?_append_left (t := tail) hin, h.code_eq, List.append_assoc,
        Text.byteAt?_append_right hstart,
        Text.byteAt?_append_left (by rw [Text.byteLength_spaces]; omega), Text.byteAt?,
        Text.utf8Bytes_spaces, List.getElem?_replicate, if_pos (by omega)]
    rw [hspace, hline, Text.byteAt?_append_cons] at hbyte
    exact hc (Text.eq_space_of_head?_utf8EncodeChar hbyte)
  · omega

end Stripped

end CommentSyntax

end CodeSpan
