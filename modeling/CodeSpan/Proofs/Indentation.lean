import CodeSpan.Dialect.Builtin
import CodeSpan.Proofs.BlankCode
import CodeSpan.Proofs.LeftContext

/-!
# Indentation does not count

The patterns that open and close keyword blocks look for a word behind one character or behind
the blanks at the start of a line. Such a pattern has as many hits on a line that is indented
by some spaces as on the line that is indented by one space.
-/

namespace CodeSpan

namespace Expr

/-- Whether there is no stop in front of a space. -/
def refusesSpace : Expr → Bool
  | .set s => !s.mem ' '
  | .seq p _ => p.refusesSpace
  | .alt p q => p.refusesSpace && q.refusesSpace
  | .plus p _ => p.refusesSpace
  | .empty | .textStart | .textEnd | .wordEdge | .notWordEdge | .opt _ _ => false

/-- Whether the expression takes any number of spaces, as many as it can. -/
def isIndent : Expr → Bool
  | .opt (.plus (.set s) false) false => s.mem ' '
  | _ => false

/-- Whether a word is sought that stands at the start of the text or behind some character. -/
def floats : Expr → Bool
  | .seq (.alt .textStart (.set _)) q => q.refusesSpace
  | .alt p q => p.floats && q.floats
  | p => p.refusesSpace

/-- Whether a word is sought behind the spaces at the start of the text. -/
def anchors : Expr → Bool
  | .seq .textStart (.seq l q) => l.isIndent && q.refusesSpace
  | .seq (.alt (.seq .textStart l) r) q => l.isIndent && r.refusesSpace && q.refusesSpace
  | _ => false

def ignoresIndent (p : Expr) : Bool :=
  p.floats || p.anchors

variable {p q l : Expr} {c d : Cursor} {s rest : List Char}

theorem stops_eq_nil_of_refusesSpace (hp : p.refusesSpace = true)
    (hc : c.after = ' ' :: rest) : p.stops c = [] := by
  induction p generalizing c with
  | set s =>
      have hmem : s.mem ' ' = false := by simpa [refusesSpace] using hp
      rw [stops, hc]
      simp [hmem]
  | seq p q ihp ihq =>
      rw [stops, ihp hp hc]
      rfl
  | alt p q ihp ihq =>
      rw [refusesSpace, Bool.and_eq_true] at hp
      rw [stops, ihp hp.1 hc, ihq hp.2 hc]
      rfl
  | plus p isLazy ih =>
      rw [stops, ih hp hc]
      rfl
  | _ => cases hp

theorem findSome?_stops_seq (p q : Expr) (c : Cursor) (f : Cursor → Option Cursor) :
    ((Expr.seq p q).stops c).findSome? f =
      (p.stops c).findSome? fun d => (q.stops d).findSome? f := by
  rw [stops, findSome?_eraseDups, ← List.head?_filterMap, List.filterMap_flatMap,
    List.head?_flatMap]
  simp only [List.head?_filterMap]

theorem head?_stops_seq (p q : Expr) (c : Cursor) :
    ((Expr.seq p q).stops c).head? = (p.stops c).findSome? fun d => (q.stops d).head? := by
  rw [stops, head?_eraseDups, List.head?_flatMap]

theorem findSome?_stops_alt (p q : Expr) (c : Cursor) (f : Cursor → Option Cursor) :
    ((Expr.alt p q).stops c).findSome? f =
      ((p.stops c).findSome? f).or ((q.stops c).findSome? f) := by
  rw [stops, findSome?_eraseDups, List.findSome?_append]

theorem head?_stops_alt (p q : Expr) (c : Cursor) :
    ((Expr.alt p q).stops c).head? = (p.stops c).head?.or (q.stops c).head? := by
  rw [stops, head?_eraseDups, List.head?_append]

/-- The text start or one character in front of what cannot stand where the cursor is. -/
theorem findSome?_stops_lead {t : CharSet} {x : Char} {f : Cursor → Option Cursor}
    (hc : c.after = x :: rest) (hf : f c = none) :
    ((Expr.alt .textStart (.set t)).stops c).findSome? f =
      if t.mem x then f (c.advance x rest) else none := by
  have hstart : (textStart.stops c).findSome? f = none := by
    rw [stops]
    split
    · simp [hf]
    · rfl
  rw [findSome?_stops_alt, hstart, Option.none_or, stops, hc]
  dsimp only
  split <;> simp

/-- The place before a text indented by one space. -/
def atIndent (s : List Char) : Cursor :=
  .start (' ' :: s)

theorem advance_start_two (s : List Char) :
    (Cursor.start (' ' :: ' ' :: s)).advance ' ' (' ' :: s) = (atIndent s).extend [' '] :=
  Cursor.eq_of_sides rfl rfl

theorem head?_stops_extend_of_refusesSpace (hq : q.refusesSpace = true) (pre : List Char)
    (hc : c.before = [] → ∃ rest, c.after = ' ' :: rest) :
    (q.stops (c.extend pre)).head? = (q.stops c).head?.map (·.extend pre) := by
  by_cases hb : c.before = []
  · obtain ⟨rest, hrest⟩ := hc hb
    rw [stops_eq_nil_of_refusesSpace hq hrest,
      stops_eq_nil_of_refusesSpace (c := c.extend pre) hq hrest]
    rfl
  · rw [q.stops_extend pre hb, List.head?_map]

/-- A floating pattern has its hits behind the last space of the indentation. -/
theorem head?_stops_of_floats (hp : p.floats = true) (s : List Char) :
    (p.stops (.start (' ' :: ' ' :: s))).head? = none ∧
      (p.stops ((atIndent s).extend [' '])).head? =
        (p.stops (atIndent s)).head?.map (·.extend [' ']) := by
  fun_induction floats p with
  | case1 t q =>
      have hnone : ∀ {c rest}, c.after = ' ' :: rest → (q.stops c).head? = none := by
        intro c rest hc
        rw [stops_eq_nil_of_refusesSpace hp hc, List.head?_nil]
      have hnext := q.stops_extend (c := (atIndent s).advance ' ' s) [' '] (List.cons_ne_nil _ _)
      constructor
      · rw [head?_stops_seq, findSome?_stops_lead (c := .start _) rfl (hnone rfl), hnone rfl,
          ite_self]
      · rw [head?_stops_seq, head?_stops_seq,
          findSome?_stops_lead (c := (atIndent s).extend [' ']) rfl (hnone rfl),
          findSome?_stops_lead (c := atIndent s) rfl (hnone rfl), Cursor.extend_advance, hnext,
          List.head?_map]
        split <;> rfl
  | case2 p q ihp ihq =>
      rw [Bool.and_eq_true] at hp
      obtain ⟨hptwo, hpone⟩ := ihp hp.1
      obtain ⟨hqtwo, hqone⟩ := ihq hp.2
      rw [head?_stops_alt, head?_stops_alt, head?_stops_alt, hptwo, hqtwo, hpone, hqone]
      exact ⟨rfl, (Option.map_or ..).symm⟩
  | case3 p =>
      have htwo : p.stops (.start (' ' :: ' ' :: s)) = [] := stops_eq_nil_of_refusesSpace hp rfl
      rw [htwo]
      exact ⟨rfl, head?_stops_extend_of_refusesSpace hp [' '] fun _ => ⟨s, rfl⟩⟩

theorem stops_set_of_mem {t : CharSet} {x : Char} (ht : t.mem x = true) (hc : c.after = x :: rest) :
    (Expr.set t).stops c = [c.advance x rest] := by
  rw [stops, hc]
  exact if_pos ht

theorem moreRounds_set_succ {t : CharSet} (ht : t.mem ' ' = true) (hc : c.after = ' ' :: rest)
    (fuel : Nat) :
    moreRounds (Expr.set t).stops false (fuel + 1) c =
      moreRounds (Expr.set t).stops false fuel (c.advance ' ' rest) ++ [c] := by
  rw [moreRounds, stops_set_of_mem ht hc]
  simp [Cursor.advance_ne hc]

theorem findSome?_stops_spaces {t : CharSet} (ht : t.mem ' ' = true) (hc : c.after = ' ' :: rest)
    {f : Cursor → Option Cursor} (hf : f c = none) :
    ((Expr.opt (.plus (.set t) false) false).stops c).findSome? f =
      (moreRounds (Expr.set t).stops false rest.length (c.advance ' ' rest)).findSome? f := by
  have hplus : ((Expr.plus (.set t) false).stops c).findSome? f =
      (moreRounds (Expr.set t).stops false rest.length (c.advance ' ' rest)).findSome? f := by
    rw [stops, findSome?_eraseDups, stops_set_of_mem ht hc, List.flatMap_singleton,
      if_neg (Cursor.advance_ne hc)]
    rfl
  rw [stops, findSome?_eraseDups]
  simp [List.findSome?_append, hplus, hf]

theorem findSome?_stops_indent (hl : l.isIndent = true) {f : Cursor → Option Cursor}
    (hf : ∀ {c rest}, c.after = ' ' :: rest → f c = none) (s : List Char) :
    (l.stops (.start (' ' :: ' ' :: s))).findSome? f =
      (l.stops (atIndent s)).findSome? fun d => f (d.extend [' ']) := by
  unfold isIndent at hl
  split at hl
  · next t =>
      have hafter : ((atIndent s).extend [' ']).after = ' ' :: s := rfl
      have hone : f ((atIndent s).extend [' ']) = none := hf hafter
      have hrounds := moreRounds_extend [' '] ((Expr.set t).stops_extend [' '])
        before_ne_nil_of_mem_stops false s.length (c := (atIndent s).advance ' ' s)
        (List.cons_ne_nil _ _)
      rw [findSome?_stops_spaces hl (c := .start _) rfl (hf rfl),
        findSome?_stops_spaces hl (c := atIndent s) rfl hone, List.length_cons,
        advance_start_two, moreRounds_set_succ hl hafter, List.findSome?_append,
        Cursor.extend_advance, hrounds, List.findSome?_map, List.findSome?_singleton, hone,
        Option.or_none]
      rfl
  · cases hl

theorem findSome?_head?_stops_indent (hl : l.isIndent = true) (hq : q.refusesSpace = true)
    (s : List Char) :
    ((l.stops (.start (' ' :: ' ' :: s))).findSome? fun d => (q.stops d).head?) =
      ((l.stops (atIndent s)).findSome? fun d => (q.stops d).head?).map (·.extend [' ']) := by
  have hnone : ∀ {c rest}, c.after = ' ' :: rest → (q.stops c).head? = none := by
    intro c rest hc
    rw [stops_eq_nil_of_refusesSpace hq hc, List.head?_nil]
  rw [findSome?_stops_indent hl hnone, List.map_findSome?]
  apply findSome?_congr
  intro d hd
  apply head?_stops_extend_of_refusesSpace hq
  intro hb
  have htext := text_of_mem_stops hd
  rw [Cursor.text, hb] at htext
  exact ⟨s, htext⟩

theorem findSome?_stops_textStart (text : List Char) (f : Cursor → Option Cursor) :
    (textStart.stops (.start text)).findSome? f = f (.start text) := by
  have hstops : textStart.stops (.start text) = [.start text] := rfl
  rw [hstops, List.findSome?_singleton]

theorem findSome?_stops_textStart_extend (c : Cursor) (f : Cursor → Option Cursor) :
    (textStart.stops (c.extend [' '])).findSome? f = none := by
  rw [stops, if_neg (by simp [Cursor.extend]), List.findSome?_nil]

/-- An anchored pattern has its hits at the start of the text, in front of the indentation. -/
theorem head?_stops_of_anchors (hp : p.anchors = true) (s : List Char) :
    (p.stops (.start (' ' :: ' ' :: s))).head? =
        (p.stops (atIndent s)).head?.map (·.extend [' ']) ∧
      (p.stops ((atIndent s).extend [' '])).head? = none := by
  unfold anchors at hp
  split at hp
  · next l q =>
      rw [Bool.and_eq_true] at hp
      have hindent := findSome?_head?_stops_indent hp.1 hp.2 s
      simp only [atIndent] at hindent ⊢
      simp only [head?_stops_seq, findSome?_stops_textStart, findSome?_stops_textStart_extend]
      exact ⟨hindent, trivial⟩
  · next l r q =>
      rw [Bool.and_eq_true, Bool.and_eq_true] at hp
      have hindent := findSome?_head?_stops_indent hp.1.1 hp.2 s
      have hother : ∀ {c rest} (f : Cursor → Option Cursor), c.after = ' ' :: rest →
          (r.stops c).findSome? f = none := by
        intro c rest f hc
        rw [stops_eq_nil_of_refusesSpace hp.1.2 hc, List.findSome?_nil]
      simp only [atIndent] at hindent ⊢
      simp only [head?_stops_seq, findSome?_stops_alt, findSome?_stops_seq,
        findSome?_stops_textStart, findSome?_stops_textStart_extend]
      rw [hother _ rfl, hother _ rfl, hother _ rfl, Option.or_none, Option.or_none]
      exact ⟨hindent, rfl⟩
  · cases hp

theorem hitsFrom_of_no_stop {x : Char} (hc : (p.stops c).head? = none) (touching : Bool) :
    p.hitsFrom c 0 touching (x :: rest) = p.hitsFrom (c.advance x rest) 0 false rest := by
  rw [hitsFrom, hitAt?, hc]

theorem hitsFrom_of_hit {x : Char} {touching : Bool} (h : p.hitAt? touching c = some ⟨c, d⟩) :
    p.hitsFrom c 0 touching (x :: rest) =
      ⟨c, d⟩ :: p.hitsFrom (c.advance x rest) (d.before.length - c.before.length - 1)
        (0 < d.before.length - c.before.length) rest := by
  rw [hitsFrom, h]

theorem hitsFrom_of_stop {x : Char} (hc : (p.stops c).head? = some d) :
    p.hitsFrom c 0 false (x :: rest) =
      ⟨c, d⟩ :: p.hitsFrom (c.advance x rest) (d.before.length - c.before.length - 1)
        (0 < d.before.length - c.before.length) rest :=
  hitsFrom_of_hit (by rw [hitAt?_false, hc]; rfl)

/-- A pattern that ignores indentation has as many hits behind two spaces as behind one. -/
theorem countHits_indent (hp : p.ignoresIndent = true) (s : List Char) :
    p.countHits (' ' :: ' ' :: s) = p.countHits (' ' :: s) := by
  have hlater : ∀ skip touching,
      (p.hitsFrom (((atIndent s).extend [' ']).advance ' ' s) skip touching s).length =
        (p.hitsFrom ((atIndent s).advance ' ' s) skip touching s).length := by
    intro skip touching
    rw [Cursor.extend_advance]
    exact p.length_hitsFrom_extend [' '] (List.cons_ne_nil _ _) skip touching s
  rw [countHits, countHits, hits, hits]
  change _ = (p.hitsFrom (atIndent s) 0 false (' ' :: s)).length
  rw [ignoresIndent, Bool.or_eq_true] at hp
  rcases hp with hfloats | hanchors
  · -- The hit moves with the last space, and the first space is read in vain.
    obtain ⟨htwo, hone⟩ := head?_stops_of_floats hfloats s
    rw [hitsFrom_of_no_stop htwo, advance_start_two]
    cases hd : (p.stops (atIndent s)).head? with
    | none =>
        rw [hd, Option.map_none] at hone
        rw [hitsFrom_of_no_stop hd, hitsFrom_of_no_stop hone, hlater]
    | some d =>
        rw [hd, Option.map_some] at hone
        have hlen : (d.extend [' ']).before.length - ((atIndent s).extend [' ']).before.length =
            d.before.length - (atIndent s).before.length := by
          simp only [Cursor.extend, List.length_append]
          omega
        rw [hitsFrom_of_stop hd, hitsFrom_of_stop hone, List.length_cons, List.length_cons, hlen,
          hlater]
  · -- The hit starts with the text and takes in one more space.
    obtain ⟨htwo, hone⟩ := head?_stops_of_anchors hanchors s
    cases hd : (p.stops (atIndent s)).head? with
    | none =>
        rw [hd, Option.map_none] at htwo
        rw [hitsFrom_of_no_stop htwo, advance_start_two, hitsFrom_of_no_stop hone,
          hitsFrom_of_no_stop hd, hlater]
    | some d =>
        rw [hd, Option.map_some] at htwo
        rw [hitsFrom_of_stop htwo, hitsFrom_of_stop hd, advance_start_two, List.length_cons,
          List.length_cons]
        congr 1
        have hlen : (d.extend [' ']).before.length = d.before.length + 1 := by
          simp [Cursor.extend]
        have hzero : (atIndent s).before.length = 0 := rfl
        have hzero' : (Cursor.start (' ' :: ' ' :: s)).before.length = 0 := rfl
        rw [hlen, hzero, hzero', Nat.sub_zero, Nat.sub_zero, Nat.add_sub_cancel]
        cases d.before.length with
        | zero =>
            rw [hitsFrom_of_no_stop hone]
            exact hlater 0 false
        | succ m =>
            rw [hitsFrom]
            simpa using hlater m true

theorem countHits_replicate (hp : p.ignoresIndent = true) (n : Nat) (s : List Char) :
    p.countHits (List.replicate (n + 1) ' ' ++ s) = p.countHits (' ' :: s) := by
  induction n with
  | zero => rfl
  | succ n ih =>
      rw [List.replicate_succ, List.replicate_succ, List.cons_append, List.cons_append,
        countHits_indent hp, ← List.cons_append, ← List.replicate_succ, ih]

theorem matchesWithin_replicate (hp : p.ignoresIndent = true) (n : Nat) (s : List Char) :
    p.matchesWithin (List.replicate (n + 1) ' ' ++ s) = p.matchesWithin (' ' :: s) := by
  have hiff : ∀ text, p.matchesWithin text = true ↔ p.countHits text ≠ 0 := by
    intro text
    rw [ne_eq, countHits_eq_zero_iff, matchesWithin, Option.isSome_iff_ne_none]
  rw [Bool.eq_iff_iff, hiff, hiff, countHits_replicate hp]

end Expr

def BlockRules.IgnoresIndent (rules : BlockRules) : Prop :=
  (∀ rule ∈ rules.openers, rule.pattern.expr.ignoresIndent = true ∧
    ∀ p ∈ rule.exception, p.expr.ignoresIndent = true) ∧
  rules.closer.expr.ignoresIndent = true

instance (rules : BlockRules) : Decidable rules.IgnoresIndent :=
  inferInstanceAs (Decidable (_ ∧ _))

namespace BlockRules

variable {rules : BlockRules}

theorem countOpens_replicate (h : rules.IgnoresIndent) (n : Nat) (s : List Char) :
    rules.countOpens (List.replicate (n + 1) ' ' ++ s) = rules.countOpens (' ' :: s) := by
  rw [countOpens_eq_sum, countOpens_eq_sum]
  congr 1
  apply List.map_congr_left
  intro rule hrule
  obtain ⟨hpattern, hexception⟩ := h.1 rule hrule
  have happlies : rule.applies (List.replicate (n + 1) ' ' ++ s) = rule.applies (' ' :: s) := by
    rw [OpenerRule.applies, OpenerRule.applies]
    cases he : rule.exception with
    | none => rfl
    | some p =>
        rw [Option.all_some, Option.all_some, Pattern.isMatch, Pattern.isMatch,
          Expr.matchesWithin_replicate (hexception p he)]
  rw [OpenerRule.count, OpenerRule.count, happlies, Pattern.count, Pattern.count,
    Expr.countHits_replicate hpattern]

theorem countCloses_replicate (h : rules.IgnoresIndent) (n : Nat) (s : List Char) :
    rules.countCloses (List.replicate (n + 1) ' ' ++ s) = rules.countCloses (' ' :: s) :=
  Expr.countHits_replicate h.2 n s

end BlockRules

theorem Dialect.keywordBlocks_ignoresIndent : keywordBlocks.IgnoresIndent := by
  decide

end CodeSpan
