import CodeSpan.Proofs.CommentAutomaton
import CodeSpan.Proofs.CommentText
import CodeSpan.Proofs.Stock

/-!
# Trailing line comments

A line marker behind code without markers is the first one on its line, so the line is cut there,
whatever the comment holds. A block comment that opens within the line comment and closes on the
line is blanked before the cut, which takes nothing away from the line marker unless the opening
marker begins inside it. That is so in `//* note */` alone, where one slash is left as code.
-/

namespace CodeSpan

namespace Text

variable {needle a b : List Char} {c : Char} {j : Nat}

theorem exists_trimStart_append (h : isBlankText a = false) (b : List Char) :
    ∃ j < a.length, trimStart (a ++ b) = (a ++ b).drop j := by
  induction a with
  | nil => cases h
  | cons c a ih =>
      cases hc : isBlank c with
      | true =>
          rw [isBlankText, List.all_cons, hc, Bool.true_and] at h
          obtain ⟨j, hj, htrim⟩ := ih h
          refine ⟨j + 1, Nat.succ_lt_succ hj, ?_⟩
          rw [List.cons_append, trimStart, List.dropWhile_cons_of_pos hc]
          exact htrim
      | false =>
          refine ⟨0, Nat.succ_pos _, ?_⟩
          rw [List.cons_append, trimStart, List.dropWhile_cons_of_neg (by simp [hc])]
          rfl

theorem isInfix_of_prefix_drop (h : needle <+: (a ++ b).drop j)
    (hle : j + needle.length ≤ a.length) : needle <:+: a := by
  have hdrop : a.drop j <+: (a ++ b).drop j := by
    rw [List.drop_append_of_le_length (by omega)]
    exact List.prefix_append _ _
  have hprefix : needle <+: a.drop j :=
    List.prefix_of_prefix_length_le h hdrop (by rw [List.length_drop]; omega)
  exact hprefix.isInfix.trans (List.drop_suffix j a).isInfix

/-- A text put behind another one first stands there, unless it stands before with the last
character still to come. -/
theorem firstAt_append (hne : needle ≠ []) (h : ¬ needle <:+: a ++ needle.dropLast)
    (b : List Char) : FirstAt needle (a ++ needle ++ b) a.length := by
  refine ⟨by rw [List.append_assoc, List.drop_left]; exact List.prefix_append _ _, ?_⟩
  intro j hj hprefix
  have hsplit : a ++ needle ++ b = (a ++ needle.dropLast) ++ ([needle.getLast hne] ++ b) := by
    rw [List.append_assoc a needle.dropLast, ← List.append_assoc needle.dropLast,
      List.dropLast_append_getLast, List.append_assoc]
  rw [hsplit] at hprefix
  have hpos := List.length_pos_of_ne_nil hne
  refine h (isInfix_of_prefix_drop hprefix ?_)
  rw [List.length_append, List.length_dropLast]
  omega

theorem not_prefix_drop_of_notMem_tail (h : ¬ needle <:+: a) (hc : c ∉ needle.tail)
    (hj : j < a.length) : ¬ needle <+: (a ++ c :: b).drop j := by
  intro hprefix
  have hlong : a.length < j + needle.length := by
    by_contra! hle
    exact h (isInfix_of_prefix_drop hprefix hle)
  obtain ⟨rest, hrest⟩ := hprefix
  obtain ⟨k, hk⟩ := Nat.exists_eq_add_of_lt hj
  have hplace : j + (k + 1) = a.length := hk.symm
  have hget : (needle ++ rest)[k + 1]? = some c := by
    rw [hrest, List.getElem?_drop, hplace, List.getElem?_append_right (Nat.le_refl _),
      Nat.sub_self]
    rfl
  rw [List.getElem?_append_left (by omega), ← List.getElem?_tail] at hget
  exact hc (List.mem_of_getElem? hget)

theorem firstOccurrence?_of_firstAt (hne : needle ≠ [])
    (h : FirstAt needle (a ++ needle ++ b) a.length) :
    firstOccurrence? needle (a ++ needle ++ b) = some ⟨a, b⟩ := by
  cases ho : firstOccurrence? needle (a ++ needle ++ b) with
  | none => exact absurd ⟨a, b, rfl⟩ ((firstOccurrence?_eq_none_iff hne).1 ho)
  | some o =>
      have hlen := (firstAt_of_firstOccurrence? ho).eq h
      have happ := eq_append_of_mem_occurrences (List.mem_of_mem_head? (Option.mem_def.2 ho))
      obtain ⟨hleft, hafter⟩ := List.append_inj happ (by simp [hlen])
      obtain ⟨hbefore, -⟩ := List.append_inj hleft hlen.symm
      obtain ⟨before, after⟩ := o
      cases hbefore
      cases hafter
      rfl

end Text

namespace CommentSyntax

variable {σ : CommentSyntax} {p t line : List Char} {start stop k m : Nat}

theorem blank_append (a t : List Char) (k m : Nat) :
    blank (a ++ t) (a.length + k) (a.length + m) = a ++ blank t k m := by
  have hmiddle : ((a ++ t).take (a.length + m)).drop (a.length + k) = (t.take m).drop k := by
    rw [List.take_length_add_append, List.drop_length_add_append]
  rw [blank, blank, hmiddle, List.take_length_add_append, List.drop_length_add_append]
  simp only [List.append_assoc]

theorem exists_blank_zero (hm : 0 < m) (hlen : m ≤ t.length) :
    ∃ rest, blank t 0 m = ' ' :: rest := by
  have hpos : 0 < Text.byteLength ((t.take m).drop 0) := by
    apply Text.byteLength_pos
    rw [List.drop_zero, ← List.length_pos_iff, List.length_take]
    omega
  obtain ⟨n, hn⟩ := Nat.exists_eq_succ_of_ne_zero (Nat.ne_of_gt hpos)
  rw [blank, hn]
  exact ⟨_, rfl⟩

theorem head?_blank (hkm : k < m) (hlen : m ≤ t.length) :
    (blank t k m).head? = some ' ' ∨ (blank t k m).head? = t.head? := by
  cases k with
  | zero =>
      obtain ⟨rest, hrest⟩ := exists_blank_zero hkm hlen
      exact .inl (by rw [hrest]; rfl)
  | succ k =>
      obtain ⟨c, t, rfl⟩ := List.exists_cons_of_length_pos (Nat.lt_of_lt_of_le (by omega) hlen)
      exact .inr rfl

theorem exists_cutLineComment_append (hσ : σ.Delimited) {c : Char} {a : List Char}
    (h : ¬ σ.line <:+: a) (hc : c ∉ σ.line) (b : List Char) :
    ∃ rest, σ.cutLineComment (a ++ c :: b) = a ++ c :: rest := by
  rw [cutLineComment]
  split
  · next o ho =>
      have happ := Text.eq_append_of_mem_occurrences (List.mem_of_find?_eq_some ho)
      rw [List.append_cons] at happ
      rcases Text.apart_of_append_eq (List.cons_ne_nil c []) hσ.1 (by simpa using hc) happ with
        ⟨gap, ha, -⟩ | ⟨gap, -, hbefore⟩
      · exact absurd ⟨o.before, gap, ha.symm⟩ h
      · exact ⟨gap, by rw [hbefore, ← List.append_cons]⟩
  · exact ⟨b, rfl⟩

/-- A line on which no block comment opens before the code is cut off. -/
theorem classify_of_late_open (hl : ¬ σ.isLineComment line = true) (hun : σ.Unpaired line)
    (hlate : ∀ start, σ.openIndex? line = some start → (σ.cutLineComment line).length ≤ start) :
    σ.classify .outside line = (.code (σ.cutLineComment line), .outside) := by
  cases ho : σ.openIndex? line with
  | none => exact classify_of_unopened hl ho
  | some start =>
      rw [classify_of_opened hl ho fun stop hc => hun start stop ho hc]
      exact if_pos (hlate start ho)

/-- Code without markers that a line comment with the given text may follow. -/
structure Precedes (σ : CommentSyntax) (p t : List Char) : Prop where
  visible : Text.isBlankText p = false
  no_line : ¬ σ.line <:+: p ++ σ.line.dropLast
  no_open : ¬ σ.blockOpen <:+: p
  starts : σ.startsLineComment ⟨p, t⟩ = true

namespace Precedes

theorem firstAt_line (h : σ.Precedes p t) (hσ : σ.Delimited) (t' : List Char) :
    Text.FirstAt σ.line (p ++ σ.line ++ t') p.length :=
  Text.firstAt_append hσ.1 h.no_line t'

theorem not_isLineComment (h : σ.Precedes p t) (hσ : σ.Delimited) :
    ¬ σ.isLineComment (p ++ σ.line ++ t) = true := by
  obtain ⟨j, hj, htrim⟩ := Text.exists_trimStart_append h.visible (σ.line ++ t)
  rw [← List.append_assoc] at htrim
  rw [isLineComment_iff, htrim]
  exact (h.firstAt_line hσ t).not_before j hj

theorem cutLineComment_eq (h : σ.Precedes p t) (hσ : σ.Delimited) {t' : List Char}
    (ht' : t'.head? ≠ some '\x7b') : σ.cutLineComment (p ++ σ.line ++ t') = p := by
  have hstarts : σ.startsLineComment ⟨p, t'⟩ = true := by
    have hright := h.starts
    rw [startsLineComment, Bool.and_eq_true] at hright ⊢
    exact ⟨by simpa using ht', hright.2⟩
  exact cutLineComment_of_firstOccurrence?
    (Text.firstOccurrence?_of_firstAt hσ.1 (h.firstAt_line hσ t')) hstarts

theorem head?_ne (h : σ.Precedes p t) : t.head? ≠ some '\x7b' := by
  have hright := h.starts
  rw [startsLineComment, Bool.and_eq_true] at hright
  simpa using hright.1

theorem lt_openIndex? (h : σ.Precedes p t) (hd : σ.Distinct)
    (happ : ∀ c ∈ σ.line.head?, c ∉ σ.blockOpen.tail)
    (ho : σ.openIndex? (p ++ σ.line ++ t) = some start) : p.length < start := by
  have hhere := blockOpen_prefix_drop ho
  obtain ⟨c, marker, hl, -⟩ := hd.line_eq
  rcases Nat.lt_trichotomy start p.length with hlt | rfl | hlt
  · rw [hl, List.append_assoc, List.cons_append] at hhere
    have hhead := happ c (by rw [hl]; rfl)
    exact absurd hhere (Text.not_prefix_drop_of_notMem_tail h.no_open hhead hlt)
  · rw [List.append_assoc, List.drop_left] at hhere
    rcases List.prefix_or_prefix_of_prefix hhere (List.prefix_append σ.line t) with hp | hp
    · exact absurd hp hd.open_apart
    · exact absurd hp hd.line_apart
  · exact hlt

theorem cutLineComment_blank (h : σ.Precedes p t) (hσ : σ.Delimited)
    (hc : σ.closeIndex? (p ++ σ.line ++ t) = some stop) (hlt : start < stop)
    (hbehind : (p ++ σ.line).length ≤ start) :
    σ.cutLineComment (blank (p ++ σ.line ++ t) start stop) = p := by
  obtain ⟨k, rfl⟩ := Nat.exists_eq_add_of_le hbehind
  obtain ⟨m, rfl⟩ := Nat.exists_eq_add_of_le (Nat.le_trans hbehind (Nat.le_of_lt hlt))
  have hlen := closeIndex?_le_length hc
  have hsum : (p ++ σ.line ++ t).length = (p ++ σ.line).length + t.length := List.length_append
  rw [blank_append]
  apply h.cutLineComment_eq hσ
  rcases head?_blank (t := t) (k := k) (m := m) (by omega) (by omega) with hhead | hhead
  · rw [hhead]
    decide
  · rw [hhead]
    exact h.head?_ne

theorem classify_eq (h : σ.Precedes p t) (hσ : σ.Delimited) (hd : σ.Distinct)
    (happ : ∀ c ∈ σ.line.head?, c ∉ σ.blockOpen.tail)
    (hbehind : ∀ start stop, σ.openIndex? (p ++ σ.line ++ t) = some start →
      σ.closeIndex? (p ++ σ.line ++ t) = some stop → start < stop →
        (p ++ σ.line).length ≤ start) :
    σ.classify .outside (p ++ σ.line ++ t) = (.code p, .outside) := by
  have hl := h.not_isLineComment hσ
  have hcut := h.cutLineComment_eq hσ h.head?_ne
  rcases σ.unpaired_or_pair (p ++ σ.line ++ t) with hun | ⟨start, stop, ho, hc, hlt⟩
  · rw [classify_of_late_open hl hun, hcut]
    intro start ho
    rw [hcut]
    exact Nat.le_of_lt (h.lt_openIndex? hd happ ho)
  · rw [classify_of_pair hl ho hc hlt, h.cutLineComment_blank hσ hc hlt (hbehind _ _ ho hc hlt)]

end Precedes

end CommentSyntax

def DialectKind.MayPrecedeComment : DialectKind → List Char → Prop
  | .brace, p => p.getLast? ≠ some ':' ∧ p.getLast? ≠ some '/'
  | .keyword, p => p.getLast?.any Text.isBlank = true

/-- A line comment whose text makes its own marker the beginning of a block comment that closes on
the line, as in `//* note */`. -/
def DialectKind.Overlaps (kind : DialectKind) (t : List Char) : Prop :=
  kind = .brace ∧ t.head? = some '*' ∧ "*/".toList <:+: t

section Stock

variable {kind : DialectKind} {p t : List Char} {start stop : Nat}

theorem comments_brace :
    DialectKind.brace.dialect.comments = ⟨['/', '/'], ['/', '*'], ['*', '/'], true⟩ := rfl

theorem comments_keyword :
    DialectKind.keyword.dialect.comments = ⟨['#'], "=begin".toList, "=end".toList, false⟩ := rfl

theorem DialectKind.line_apart_open (kind : DialectKind) :
    ∀ c ∈ kind.dialect.comments.line.head?, c ∉ kind.dialect.comments.blockOpen.tail := by
  intro c hc
  cases kind with
  | brace =>
      obtain rfl : '/' = c := Option.some.inj hc
      decide
  | keyword =>
      obtain rfl : '#' = c := Option.some.inj hc
      decide

theorem DialectKind.precedes (hvisible : Text.isBlankText p = false)
    (hline : ¬ kind.dialect.comments.line <:+: p)
    (hopen : ¬ kind.dialect.comments.blockOpen <:+: p) (hends : kind.MayPrecedeComment p)
    (ht : t.head? ≠ some '\x7b') : kind.dialect.comments.Precedes p t := by
  have hbrace : (t.head? != some '\x7b') = true := by simpa using ht
  cases kind with
  | brace =>
      obtain ⟨hcolon, hslash⟩ := hends
      rw [comments_brace] at hline hopen ⊢
      refine ⟨hvisible, ?_, hopen, ?_⟩
      · -- A marker that ends with one more slash begins with the last character of the code.
        intro hin
        rcases List.infix_concat_iff.1 hin with ⟨r, hr⟩ | hin
        · have hcancel : (r ++ ['/']) ++ ['/'] = p ++ ['/'] := by
            rw [List.append_assoc]
            exact hr
          rw [← List.append_cancel_right hcancel, List.getLast?_concat] at hslash
          exact hslash rfl
        · exact hline hin
      · rw [CommentSyntax.startsLineComment, hbrace, Bool.true_and]
        cases hlast : p.getLast? with
        | none =>
            rw [List.getLast?_eq_none_iff.1 hlast] at hvisible
            cases hvisible
        | some c =>
            rw [hlast] at hcolon
            simpa using hcolon
  | keyword =>
      obtain ⟨c, hlast, hblank⟩ := (Option.any_eq_true _ _).1 hends
      rw [comments_keyword] at hline hopen ⊢
      refine ⟨hvisible, by simpa using hline, hopen, ?_⟩
      rw [CommentSyntax.startsLineComment, hbrace, Bool.true_and, hlast]
      exact hblank

theorem drop_braceLine (p t : List Char) (k : Nat) :
    (p ++ ['/', '/'] ++ t).drop (p.length + k) = ('/' :: '/' :: t).drop k := by
  rw [List.append_assoc, List.drop_length_add_append]
  rfl

/-- A block comment that opens before the text of the line comment and closes on the line. -/
theorem DialectKind.overlaps_of_pair (h : kind.dialect.comments.Precedes p t)
    (ho : kind.dialect.comments.openIndex? (p ++ kind.dialect.comments.line ++ t) = some start)
    (hc : kind.dialect.comments.closeIndex? (p ++ kind.dialect.comments.line ++ t) = some stop)
    (hlt : start < stop) (hinside : start < (p ++ kind.dialect.comments.line).length) :
    kind.Overlaps t := by
  have hbehind := h.lt_openIndex? kind.distinct_comments kind.line_apart_open ho
  have hhere := CommentSyntax.blockOpen_prefix_drop ho
  rw [List.length_append] at hinside
  cases kind with
  | keyword =>
      have hone : DialectKind.keyword.dialect.comments.line.length = 1 := rfl
      omega
  | brace =>
      have hσ := DialectKind.brace.dialect.comments_delimited
      rw [comments_brace] at h ho hc hinside hhere hσ
      dsimp only [List.length_cons, List.length_nil] at hinside
      have hstart : start = p.length + 1 := by omega
      rw [hstart, drop_braceLine] at hhere
      obtain ⟨rest, hrest⟩ := hhere
      have hchars : '/' :: '*' :: rest = '/' :: t := hrest
      refine ⟨rfl, by rw [← (List.cons.inj hchars).2]; rfl, ?_⟩
      rcases CommentSyntax.closeIndex?_cases hσ (p ++ ['/', '/'] ++ t) with
        ⟨last, hclose, hlast⟩ | ⟨hnone, -⟩
      · rw [hc, Option.some.injEq] at hclose
        dsimp only [List.length_cons, List.length_nil] at hclose
        obtain ⟨k, rfl⟩ := Nat.exists_eq_add_of_le (show p.length ≤ last by omega)
        have hat := hlast.here
        rw [drop_braceLine] at hat
        -- Neither slash of the line marker begins a closing marker.
        rcases k with _ | _ | k
        · obtain ⟨rest, hrest⟩ := hat
          cases (List.cons.inj hrest).1
        · obtain ⟨rest, hrest⟩ := hat
          cases (List.cons.inj hrest).1
        · exact hat.isInfix.trans (List.drop_suffix k t).isInfix
      · rw [hc] at hnone
        cases hnone

theorem DialectKind.pair_of_overlaps (h : kind.dialect.comments.Precedes p t)
    (hoverlaps : kind.Overlaps t) :
    kind.dialect.comments.openIndex? (p ++ kind.dialect.comments.line ++ t) =
        some (p.length + 1) ∧
      ∃ stop, kind.dialect.comments.closeIndex? (p ++ kind.dialect.comments.line ++ t) =
        some stop ∧ p.length + 1 < stop := by
  obtain ⟨rfl, hstar, a, b, rfl⟩ := hoverlaps
  have hσ := DialectKind.brace.dialect.comments_delimited
  have hafter : ∀ start, _ → p.length < start := fun _ =>
    h.lt_openIndex? DialectKind.brace.distinct_comments DialectKind.brace.line_apart_open
  rw [comments_brace] at hσ hafter ⊢
  constructor
  · obtain ⟨rest, hrest⟩ := List.head?_eq_some_iff.1 hstar
    have hhere : ['/', '*'] <+: (p ++ ['/', '/'] ++ (a ++ "*/".toList ++ b)).drop
        (p.length + 1) := by
      rw [drop_braceLine, hrest]
      exact ⟨rest, rfl⟩
    rcases CommentSyntax.openIndex?_cases hσ (p ++ ['/', '/'] ++ (a ++ "*/".toList ++ b)) with
      ⟨first, ho, hfirst⟩ | ⟨-, hno⟩
    · have hlt := hafter first ho
      have hle : first ≤ p.length + 1 := by
        by_contra! hgt
        exact hfirst.not_before _ hgt hhere
      rw [ho, show first = p.length + 1 by omega]
    · exact absurd (hhere.isInfix.trans (List.drop_suffix _ _).isInfix) hno
  · obtain ⟨stop, hc, hle⟩ := CommentSyntax.le_closeIndex? hσ (p ++ ['/', '/'] ++ a) b
    refine ⟨stop, by simpa using hc, ?_⟩
    simp only [List.length_append, List.length_cons, List.length_nil] at hle
    omega

/-- Of overlapping markers the scan leaves the first slash of the line marker as code. -/
theorem DialectKind.classify_of_overlaps (h : kind.dialect.comments.Precedes p t)
    (hoverlaps : kind.Overlaps t) :
    ∃ rest, kind.dialect.comments.classify .outside (p ++ kind.dialect.comments.line ++ t) =
      (.code (p ++ '/' :: ' ' :: rest), .outside) := by
  obtain ⟨ho, stop, hc, hlt⟩ := DialectKind.pair_of_overlaps h hoverlaps
  obtain ⟨rfl, -⟩ := hoverlaps
  have hσ := DialectKind.brace.dialect.comments_delimited
  have hno : ¬ ['/', '/'] <:+: p ++ ['/'] := h.no_line
  have hl := h.not_isLineComment hσ
  have hlen := CommentSyntax.closeIndex?_le_length hc
  rw [CommentSyntax.classify_of_pair hl ho hc hlt]
  obtain ⟨m, rfl⟩ := Nat.exists_eq_add_of_le (Nat.le_of_lt hlt)
  rw [comments_brace] at hσ hlen ⊢
  have hsplit : p ++ ['/', '/'] ++ t = (p ++ ['/']) ++ ('/' :: t) := by
    simp only [List.append_assoc, List.cons_append, List.nil_append]
  have hslash : (p ++ ['/']).length = p.length + 1 := List.length_append
  have hsum : ((p ++ ['/']) ++ ('/' :: t)).length = (p ++ ['/']).length + ('/' :: t).length :=
    List.length_append
  dsimp only at hlen ⊢
  rw [hsplit, ← hslash] at hlen ⊢
  obtain ⟨rest, hrest⟩ := CommentSyntax.exists_blank_zero (t := '/' :: t) (m := m) (by omega)
    (by omega)
  have hblank := CommentSyntax.blank_append (p ++ ['/']) ('/' :: t) 0 m
  rw [Nat.add_zero, hrest] at hblank
  obtain ⟨rest', hcut⟩ := CommentSyntax.exists_cutLineComment_append hσ hno
    (show ' ' ∉ ['/', '/'] by decide) rest
  refine ⟨rest', ?_⟩
  rw [hblank, hcut, List.append_assoc]
  rfl

/-- A line comment behind code without its marker and without the opening block marker is removed
whole and the scan stays outside of block comments, unless the markers overlap. A first slash and
what stands behind the block comment are left then. -/
theorem classify_trailing_comment (kind : DialectKind) (p t : List Char)
    (hvisible : Text.isBlankText p = false) (hline : ¬ kind.dialect.comments.line <:+: p)
    (hopen : ¬ kind.dialect.comments.blockOpen <:+: p) (hends : kind.MayPrecedeComment p)
    (ht : t.head? ≠ some '\x7b') :
    let result := kind.dialect.comments.classify .outside (p ++ kind.dialect.comments.line ++ t)
    result.2 = .outside ∧ (result.1 = .code p ↔ ¬ kind.Overlaps t) ∧
      (kind.Overlaps t → ∃ rest, result.1 = .code (p ++ '/' :: ' ' :: rest)) := by
  have h := DialectKind.precedes hvisible hline hopen hends ht
  by_cases hoverlaps : kind.Overlaps t
  · obtain ⟨rest, hrest⟩ := DialectKind.classify_of_overlaps h hoverlaps
    simp only [hrest, LineClass.code.injEq, List.append_right_eq_self, reduceCtorEq, hoverlaps,
      not_true_eq_false, List.append_cancel_left_eq, List.cons.injEq, true_and,
      forall_const, exists_eq']
  · have hclass := h.classify_eq kind.dialect.comments_delimited kind.distinct_comments
      kind.line_apart_open fun start stop ho hc hlt => by
        by_contra! hinside
        exact hoverlaps (DialectKind.overlaps_of_pair h ho hc hlt hinside)
    simp only [hclass, hoverlaps, not_false_eq_true, false_implies, and_self]

theorem classify_trailing_comment_notes :
    let p := "f(); ".toList
    let t := " see /* notes */ \x7d".toList
    (DialectKind.brace.dialect.comments.classify .outside (p ++ ['/', '/'] ++ t)).1 = .code p :=
  (classify_trailing_comment .brace "f(); ".toList " see /* notes */ \x7d".toList (by decide)
    (by decide) (by decide) ⟨by decide, by decide⟩ (by decide)).2.1.2
    fun h => absurd h.2.1 (by decide)

/-- A line comment that begins with a star is not removed whole: its first slash and the brace
behind it stay. -/
theorem not_classify_trailing_comment :
    let p := "f(); ".toList
    let t := "* a */ \x7d".toList
    let result := DialectKind.brace.dialect.comments.classify .outside (p ++ ['/', '/'] ++ t)
    result.1 ≠ .code p ∧ result = (.code "f(); /        \x7d".toList, .outside) := by
  decide

end Stock

end CodeSpan
