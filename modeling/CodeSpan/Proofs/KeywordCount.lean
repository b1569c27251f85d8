import CodeSpan.Proofs.Indentation
import CodeSpan.Proofs.StandaloneWord

/-!
# Counting keywords

The patterns for `do` and `end` seek a word together with the characters next to it. A hit takes
both neighbours in, and successive hits do not overlap. Of two words with a single character
between them the second one is therefore found only if the first one is not.
-/

namespace CodeSpan

theorem Text.cut_of_drop_eq_cons {s rest : List Char} {x : Char} {n : Nat}
    (h : s.drop n = x :: rest) : s[n]? = some x ∧ s.drop (n + 1) = rest := by
  rw [← List.head?_drop, ← List.tail_drop, h]
  exact ⟨rfl, rfl⟩

def Cursor.behind (s : List Char) (n : Nat) : Cursor :=
  ⟨Text.byteLength (s.take n).reverse, (s.take n).reverse, s.drop n, rfl⟩

namespace Cursor

variable {s rest : List Char} {x : Char} {n : Nat}

theorem behind_zero (s : List Char) : behind s 0 = .start s :=
  eq_of_sides rfl rfl

@[simp] theorem after_behind (s : List Char) (n : Nat) : (behind s n).after = s.drop n := rfl

@[simp] theorem length_before_behind (s : List Char) (n : Nat) :
    (behind s n).before.length = min n s.length := by
  simp [behind]

theorem advance_behind (h : s.drop n = x :: rest) :
    (behind s n).advance x rest = behind s (n + 1) := by
  obtain ⟨hx, hrest⟩ := Text.cut_of_drop_eq_cons h
  apply eq_of_sides
  · simp [advance, behind, List.take_add_one, hx]
  · exact hrest.symm

theorem behind_of_drop_eq_nil (h : s.drop n = []) : behind s (n + 1) = behind s n := by
  have hle := List.drop_eq_nil_iff.1 h
  apply eq_of_sides
  · simp only [behind]
    rw [List.take_of_length_le hle, List.take_of_length_le (Nat.le_succ_of_le hle)]
  · simp only [after_behind]
    rw [h, List.drop_eq_nil_of_le (Nat.le_succ_of_le hle)]

end Cursor

namespace Expr

open Text (StandsAlone standaloneFrom standalonePlaces apart)

/-- The characters of a word one after another, and then more. -/
def spelled (word : List Char) (q : Expr) : Expr :=
  word.foldr (fun c q => .seq (.set (.single c)) q) q

/-- A word with a character of a set on each side, or with the end of the text there. -/
def isolated (left right : CharSet) (word : List Char) : Expr :=
  .seq (.alt .textStart (.set left)) (spelled word (.alt (.set right) .textEnd))

variable {left right : CharSet} {word s : List Char} {n : Nat} {p : Expr}

theorem head?_stops_spelled (word : List Char) (q : Expr) (s : List Char) (n : Nat) :
    ((spelled word q).stops (.behind s n)).head? =
      if word <+: s.drop n then (q.stops (.behind s (n + word.length))).head? else none := by
  induction word generalizing n with
  | nil => simp [spelled]
  | cons c word ih =>
      change ((Expr.seq (.set (.single c)) (spelled word q)).stops _).head? = _
      rw [head?_stops_seq, stops, Cursor.after_behind]
      cases hdrop : s.drop n with
      | nil => simp
      | cons x rest =>
          have hrest := (Text.cut_of_drop_eq_cons hdrop).2
          dsimp only
          by_cases hx : x = c
          · rw [if_pos (CharSet.mem_single.2 hx), List.findSome?_singleton,
              Cursor.advance_behind hdrop, ih, hrest]
            simp [hx, Nat.add_assoc, Nat.add_comm 1]
          · have hmem : ¬ (CharSet.single c).mem x = true := fun h => hx (CharSet.mem_single.1 h)
            have hne : ¬ c = x := fun h => hx h.symm
            simp [hmem, hne]

theorem head?_stops_right (right : CharSet) (s : List Char) (n : Nat) :
    ((Expr.alt (.set right) .textEnd).stops (.behind s n)).head? =
      if (s.drop n).head?.all right.mem = true then some (.behind s (n + 1)) else none := by
  rw [head?_stops_alt, stops, stops, Cursor.after_behind]
  cases hdrop : s.drop n with
  | nil => simp [Cursor.behind_of_drop_eq_nil hdrop]
  | cons x rest =>
      dsimp only
      rw [Cursor.advance_behind hdrop]
      by_cases hx : right.mem x = true <;> simp [hx]

theorem head?_stops_word (right : CharSet) (word s : List Char) (n : Nat) :
    ((spelled word (.alt (.set right) .textEnd)).stops (.behind s n)).head? =
      if word <+: s.drop n ∧ (s.drop (n + word.length)).head?.all right.mem = true then
        some (.behind s (n + (word.length + 1))) else none := by
  rw [head?_stops_spelled, head?_stops_right, ite_and, Nat.add_assoc]

/-- A word at the start of the text needs nothing before it. -/
theorem findSome?_textStart_word (left : CharSet) (hn : n ≤ s.length) :
    (textStart.stops (.behind s n)).findSome? (fun d =>
        ((spelled word (.alt (.set right) .textEnd)).stops d).head?) =
      if n = 0 ∧ StandsAlone left.mem right.mem word s 0 then
        some (.behind s (word.length + 1))
      else none := by
  by_cases hzero : n = 0
  · subst hzero
    have hstart : textStart.stops (.behind s 0) = [.behind s 0] := rfl
    have hleft : (s.take 0).getLast?.all left.mem = true := rfl
    rw [hstart, List.findSome?_singleton, head?_stops_word, Nat.zero_add]
    simp only [Text.standsAlone_iff, and_iff_left hleft, Nat.zero_add, true_and]
  · have hbefore : ¬ (Cursor.behind s n).before.isEmpty = true := by
      rw [List.isEmpty_iff, ← List.length_eq_zero_iff, Cursor.length_before_behind]
      omega
    rw [stops, if_neg hbefore, if_neg fun h => hzero h.1, List.findSome?_nil]

theorem findSome?_set_word (hne : word ≠ []) :
    ((Expr.set left).stops (.behind s n)).findSome? (fun d =>
        ((spelled word (.alt (.set right) .textEnd)).stops d).head?) =
      if StandsAlone left.mem right.mem word s (n + 1) then
        some (.behind s (n + 1 + (word.length + 1)))
      else none := by
  rw [stops, Cursor.after_behind]
  cases hdrop : s.drop n with
  | nil =>
      have hno : ¬ StandsAlone left.mem right.mem word s (n + 1) := by
        intro h
        have hle := h.add_length_le hne
        have hend := List.drop_eq_nil_iff.1 hdrop
        omega
      rw [if_neg hno, List.findSome?_nil]
  | cons x rest =>
      have hlast : (s.take (n + 1)).getLast? = some x := by
        rw [List.getLast?_take, if_neg (Nat.succ_ne_zero n), Nat.add_sub_cancel,
          (Text.cut_of_drop_eq_cons hdrop).1]
        rfl
      dsimp only
      rw [Cursor.advance_behind hdrop]
      simp only [Text.standsAlone_iff, hlast, Option.all_some]
      by_cases hleft : left.mem x = true
      · rw [if_pos hleft, List.findSome?_singleton, head?_stops_word]
        simp only [hleft, and_true]
      · rw [if_neg hleft, if_neg fun h => hleft h.2, List.findSome?_nil]

theorem head?_stops_isolated (left right : CharSet) (hne : word ≠ []) (hn : n ≤ s.length) :
    ((isolated left right word).stops (.behind s n)).head? =
      if n = 0 ∧ StandsAlone left.mem right.mem word s 0 then
        some (.behind s (word.length + 1))
      else if StandsAlone left.mem right.mem word s (n + 1) then
        some (.behind s (n + 1 + (word.length + 1)))
      else none := by
  rw [isolated, head?_stops_seq, findSome?_stops_alt, findSome?_textStart_word left hn,
    findSome?_set_word hne]
  split <;> rfl

/-- The first place at which a hit that is sought behind `n` characters may show a word: at the
start of the text the first one, and further on the next but one. -/
def firstShown (n : Nat) : Nat :=
  if n = 0 then 0 else n + 1

theorem firstShown_succ (n : Nat) : firstShown (n + 1) = n + 2 :=
  if_neg (Nat.succ_ne_zero n)

theorem le_firstShown (n : Nat) : n ≤ firstShown n := by
  rw [firstShown]
  split <;> omega

/-- A search either shows the first word that it may still show, or has none to show here. -/
theorem head?_stops_isolated_cases (left right : CharSet) (hne : word ≠ []) (hn : n ≤ s.length) :
    (((isolated left right word).stops (.behind s n)).head? = none ∧
      standaloneFrom left.mem right.mem word s (firstShown n) =
        standaloneFrom left.mem right.mem word s (firstShown (n + 1))) ∨
    ∃ i, n ≤ i ∧ StandsAlone left.mem right.mem word s i ∧
      ((isolated left right word).stops (.behind s n)).head? =
        some (.behind s (i + (word.length + 1))) ∧
      standaloneFrom left.mem right.mem word s (firstShown n) =
        standaloneFrom left.mem right.mem word s i := by
  have hstops := head?_stops_isolated left right hne hn
  by_cases hfirst : n = 0 ∧ StandsAlone left.mem right.mem word s 0
  · rw [if_pos hfirst] at hstops
    obtain ⟨rfl, hzero⟩ := hfirst
    exact .inr ⟨0, Nat.le_refl 0, hzero, by rw [hstops, Nat.zero_add], rfl⟩
  · rw [if_neg hfirst] at hstops
    have hnext : standaloneFrom left.mem right.mem word s (firstShown n) =
        standaloneFrom left.mem right.mem word s (n + 1) := by
      rw [firstShown]
      split
      · next hzero =>
          apply Text.standaloneFrom_congr (Nat.zero_le _)
          intro i _ hi h
          obtain rfl : i = 0 := by omega
          exact hfirst ⟨hzero, h⟩
      · rfl
    by_cases hsecond : StandsAlone left.mem right.mem word s (n + 1)
    · rw [if_pos hsecond] at hstops
      exact .inr ⟨n + 1, Nat.le_succ n, hsecond, hstops, hnext⟩
    · rw [if_neg hsecond] at hstops
      refine .inl ⟨hstops, hnext.trans (Text.standaloneFrom_congr (le_firstShown _) ?_)⟩
      intro i hle hlt h
      rw [firstShown_succ] at hlt
      obtain rfl : i = n + 1 := by omega
      exact hsecond h

theorem hitsFrom_of_longer_stop {c d : Cursor} {x : Char} {rest : List Char}
    (hd : (p.stops c).head? = some d) (hlt : c.before.length < d.before.length)
    (touching : Bool) :
    p.hitsFrom c 0 touching (x :: rest) =
      ⟨c, d⟩ :: p.hitsFrom (c.advance x rest) (d.before.length - c.before.length - 1)
        (0 < d.before.length - c.before.length) rest := by
  have hne : d ≠ c := by
    rintro rfl
    exact Nat.lt_irrefl _ hlt
  apply hitsFrom_of_hit
  rw [hitAt?, hd]
  simp [hne]

/-- Each hit shows the first word still to be shown, and hides the one that begins within its
reach. -/
theorem length_hitsFrom_isolated (hne : word ≠ []) (hword : word.any left.mem = false)
    (hn : n ≤ s.length) (skip : Nat) (touching : Bool) {rest : List Char}
    (hrest : s.drop n = rest) :
    ((isolated left right word).hitsFrom (.behind s n) skip touching rest).length =
      (apart (word.length + 1)
        (standaloneFrom left.mem right.mem word s (firstShown (n + skip)))).length := by
  have hpos := List.length_pos_of_ne_nil hne
  -- The characters to be skipped only put off the first word that may be shown.
  induction rest generalizing n skip touching with
  | nil =>
      have hend := List.drop_eq_nil_iff.1 hrest
      have hshown := Nat.le_trans (Nat.le_add_right n skip) (le_firstShown (n + skip))
      rw [Text.standaloneFrom_eq_nil (Nat.le_trans hend hshown)]
      cases skip with
      | succ skip => rfl
      | zero =>
          rw [hitsFrom, hitAt?]
          rcases head?_stops_isolated_cases left right hne hn with ⟨hnone, -⟩ | ⟨i, hle, hi, -⟩
          · rw [hnone]
            rfl
          · have hfit := hi.add_length_le hne
            omega
  | cons x rest ih =>
      have hlt : n + 1 ≤ s.length := by
        by_contra! hend
        rw [List.drop_eq_nil_of_le (Nat.le_of_lt_succ hend)] at hrest
        cases hrest
      have hnext := (Text.cut_of_drop_eq_cons hrest).2
      cases skip with
      | succ skip =>
          rw [hitsFrom, Cursor.advance_behind hrest, ih hlt skip true hnext,
            Nat.add_assoc, Nat.add_comm 1 skip]
      | zero =>
          rw [Nat.add_zero n]
          rcases head?_stops_isolated_cases left right hne hn with
            ⟨hnone, hsame⟩ | ⟨i, hle, hi, hd, hsame⟩
          · rw [hitsFrom_of_no_stop hnone, Cursor.advance_behind hrest, ih hlt 0 false hnext,
              Nat.add_zero (n + 1), hsame]
          · have hfit := hi.add_length_le hne
            have hlonger : (Cursor.behind s n).before.length <
                (Cursor.behind s (i + (word.length + 1))).before.length := by
              rw [Cursor.length_before_behind, Cursor.length_before_behind]
              omega
            have hshown : firstShown (n + 1 + (min (i + (word.length + 1)) s.length -
                min n s.length - 1)) = min (i + (word.length + 1)) s.length + 1 := by
              rw [firstShown, if_neg (by omega)]
              omega
            rw [hitsFrom_of_longer_stop hd hlonger, Cursor.advance_behind hrest,
              List.length_cons, ih hlt _ _ hnext, hsame,
              Text.apart_standaloneFrom hi hne hword, List.length_cons,
              Cursor.length_before_behind, Cursor.length_before_behind, hshown]

theorem countHits_isolated (hne : word ≠ []) (hword : word.any left.mem = false)
    (right : CharSet) (s : List Char) :
    (isolated left right word).countHits s =
      (apart (word.length + 1)
        (standalonePlaces left.mem right.mem word s)).length := by
  rw [countHits, hits, ← Cursor.behind_zero,
    length_hitsFrom_isolated hne hword (Nat.zero_le _) 0 false List.drop_zero,
    ← Text.standaloneFrom_zero]
  rfl

end Expr

namespace Dialect

/-- A character that does not make the `do` or `end` behind it a part of a name. -/
def mayPrecedeKeyword (c : Char) : Bool :=
  !(Text.isWord c || ['.', ':', '@', '$'].contains c)

def mayFollowKeyword (c : Char) : Bool :=
  !(Text.isWord c || [':', '?', '!'].contains c)

/-- The places at which a `do` or an `end` stands alone. -/
def keywordPlaces (word code : List Char) : List Nat :=
  Text.standalonePlaces mayPrecedeKeyword mayFollowKeyword word code

def beforeKeyword : CharSet :=
  .compl (.union (.union (.union (.union (.single '.') (.single ':')) .word) (.single '@'))
    (.single '$'))

def behindKeyword : CharSet :=
  .compl (.union (.union (.union .word (.single ':')) (.single '?')) (.single '!'))

theorem mem_beforeKeyword : beforeKeyword.mem = mayPrecedeKeyword := by
  funext c
  simp only [beforeKeyword, mayPrecedeKeyword, CharSet.mem_compl, CharSet.mem_union,
    CharSet.mem_single_eq, CharSet.mem_word, List.contains_cons, List.contains_nil, Bool.or_false]
  ac_rfl

theorem mem_behindKeyword : behindKeyword.mem = mayFollowKeyword := by
  funext c
  simp only [behindKeyword, mayFollowKeyword, CharSet.mem_compl, CharSet.mem_union,
    CharSet.mem_single_eq, CharSet.mem_word, List.contains_cons, List.contains_nil, Bool.or_false]
  ac_rfl

theorem expr_closer : keywordBlocks.closer.expr =
    Expr.isolated beforeKeyword behindKeyword "end".toList := by
  decide

theorem expr_doOpener : doOpener.pattern.expr =
    Expr.isolated beforeKeyword behindKeyword "do".toList := by
  decide

section KeywordWord

variable (word code : List Char) (hne : word ≠ [])
  (hword : word.any mayPrecedeKeyword = false)

include hne hword

theorem countHits_keyword :
    (Expr.isolated beforeKeyword behindKeyword word).countHits code =
      (Text.apart (word.length + 1) (keywordPlaces word code)).length := by
  rw [← mem_beforeKeyword] at hword
  rw [Expr.countHits_isolated hne hword, mem_beforeKeyword, mem_behindKeyword, keywordPlaces]

theorem length_apart_keywordPlaces_iff :
    (Text.apart (word.length + 1) (keywordPlaces word code)).length =
        (keywordPlaces word code).length ↔
      ∀ i ∈ keywordPlaces word code, i + (word.length + 1) ∉ keywordPlaces word code := by
  apply Text.length_apart_eq_iff _ (Nat.succ_pos _)
  rw [keywordPlaces, ← Text.standaloneFrom_zero]
  exact Text.pairwise_standaloneFrom hne hword 0

end KeywordWord

/-- From left to right every `end` and every `do` that stands alone is counted, but for those
that share their neighbour on the left with one that is counted. -/
theorem count_keywordPlaces (code : List Char) :
    let ends := keywordPlaces "end".toList code
    let dos := keywordPlaces "do".toList code
    keywordBlocks.countCloses code = (Text.apart 4 ends).length ∧
    doOpener.count code = (Text.apart 3 dos).length ∧
    (keywordBlocks.countCloses code = ends.length ↔ ∀ i ∈ ends, i + 4 ∉ ends) ∧
    (doOpener.count code = dos.length ↔ ∀ i ∈ dos, i + 3 ∉ dos) := by
  have hends : keywordBlocks.countCloses code =
      (Text.apart 4 (keywordPlaces "end".toList code)).length := by
    rw [BlockRules.countCloses, Pattern.count, expr_closer]
    exact countHits_keyword _ code (by decide) (by decide)
  have hdos : doOpener.count code = (Text.apart 3 (keywordPlaces "do".toList code)).length := by
    change doOpener.pattern.count code = _
    rw [Pattern.count, expr_doOpener]
    exact countHits_keyword _ code (by decide) (by decide)
  refine ⟨hends, hdos, ?_, ?_⟩
  · rw [hends]
    exact length_apart_keywordPlaces_iff "end".toList code (by decide) (by decide)
  · rw [hdos]
    exact length_apart_keywordPlaces_iff "do".toList code (by decide) (by decide)

/-- Of two words with a single space between them the second one is not counted. -/
theorem not_count_keywordPlaces :
    (keywordPlaces "end".toList "end end".toList = [0, 4] ∧
      keywordBlocks.countCloses "end end".toList = 1) ∧
    keywordPlaces "do".toList "x do do".toList = [2, 5] ∧ doOpener.count "x do do".toList = 1 := by
  decide +kernel

end Dialect

end CodeSpan
