import CodeSpan.Dialect.Basic
import CodeSpan.Pattern.Lemmas
import CodeSpan.Text.Basic
import Mathlib.Algebra.GroupWithZero.Nat
import Mathlib.Data.List.Basic

/-!
# Patterns on blank code

A pattern is solid when each of its hits takes a character that is not blank. A solid pattern
has no hit in blank code, so a line that holds nothing but blanks opens and closes no block of
a dialect whose patterns are solid.
-/

namespace CodeSpan

/-- Whether a set is a single character that is not blank. -/
def CharSet.isSolid : CharSet → Bool
  | .range first last => first == last && !Text.isBlank first
  | _ => false

theorem CharSet.isBlank_eq_false_of_mem {s : CharSet} (hs : s.isSolid = true) {c : Char}
    (hc : s.mem c = true) : Text.isBlank c = false := by
  cases s with
  | range first last =>
      simp only [isSolid, Bool.and_eq_true, beq_iff_eq, Bool.not_eq_true'] at hs
      obtain ⟨rfl, hblank⟩ := hs
      have heq : c = first := CharSet.mem_single.1 hc
      rw [heq, hblank]
  | _ => cases hs

namespace Expr

/-- Whether every stop lies behind a character that is not blank. -/
def isSolid : Expr → Bool
  | .set s => s.isSolid
  | .seq p q => p.isSolid || q.isSolid
  | .alt p q => p.isSolid && q.isSolid
  | .plus p _ => p.isSolid
  | .empty | .textStart | .textEnd | .wordEdge | .notWordEdge | .opt _ _ => false

theorem stops_eq_nil_of_isSolid {p : Expr} (hp : p.isSolid = true) {c : Cursor}
    (hc : Text.isBlankText c.text = true) : p.stops c = [] := by
  induction p generalizing c with
  | set s =>
      rw [stops]
      cases hafter : c.after with
      | nil => rfl
      | cons x rest =>
          have hblank : Text.isBlank x = true := by
            rw [Cursor.text, hafter, Text.isBlankText_append, Bool.and_eq_true] at hc
            exact List.all_eq_true.1 hc.2 x List.mem_cons_self
          have hmem : s.mem x = false := by
            by_contra hx
            rw [Bool.not_eq_false] at hx
            rw [CharSet.isBlank_eq_false_of_mem hp hx] at hblank
            cases hblank
          simp [hmem]
  | seq p q ihp ihq =>
      have hnil : (p.stops c).flatMap q.stops = [] := by
        rw [isSolid, Bool.or_eq_true] at hp
        rcases hp with hp | hq
        · rw [ihp hp hc, List.flatMap_nil]
        · -- The stops of the first part are places in the same blank text.
          refine List.flatMap_eq_nil_iff.2 fun d hd => ihq hq ?_
          rw [text_of_mem_stops hd]
          exact hc
      rw [stops, hnil]
      rfl
  | alt p q ihp ihq =>
      rw [isSolid, Bool.and_eq_true] at hp
      rw [stops, ihp hp.1 hc, ihq hp.2 hc]
      rfl
  | plus p isLazy ih =>
      rw [stops, ih hp hc]
      rfl
  | _ => cases hp

theorem findFrom?_eq_none {p : Expr} {c : Cursor} {s : List Char} (hs : c.after = s)
    (h : ∀ d : Cursor, d.text = c.text → p.stops d = []) : p.findFrom? c s = none := by
  induction s generalizing c with
  | nil => rw [findFrom?, h c rfl]; rfl
  | cons x rest ih =>
      have htext := Cursor.text_advance hs
      rw [findFrom?, h c rfl]
      exact ih rfl fun d hd => h d (hd.trans htext)

theorem find?_eq_none_of_isSolid {p : Expr} (hp : p.isSolid = true) {s : List Char}
    (hs : Text.isBlankText s = true) : p.find? s = none :=
  findFrom?_eq_none rfl fun d hd => stops_eq_nil_of_isSolid hp (by rw [hd]; exact hs)

end Expr

theorem Pattern.count_of_isSolid {p : Pattern} (hp : p.expr.isSolid = true) {s : List Char}
    (hs : Text.isBlankText s = true) : p.count s = 0 :=
  Expr.countHits_eq_zero_iff.2 (Expr.find?_eq_none_of_isSolid hp hs)

namespace BlockRules

/-- Rules that count nothing on blank code. -/
def Solid (rules : BlockRules) : Prop :=
  (∀ rule ∈ rules.openers, rule.pattern.expr.isSolid = true) ∧ rules.closer.expr.isSolid = true

instance (rules : BlockRules) : Decidable rules.Solid :=
  inferInstanceAs (Decidable (_ ∧ _))

variable {rules : BlockRules} {code : List Char}

theorem countOpens_eq_sum (rules : BlockRules) (code : List Char) :
    rules.countOpens code = (rules.openers.map (·.count code)).sum := by
  rw [countOpens, List.sum, List.foldr_map]

/-- A line has a first opener exactly when it has openers at all. -/
theorem firstOpener?_eq_none_iff : rules.firstOpener? code = none ↔ rules.countOpens code = 0 := by
  have hrule : ∀ rule : OpenerRule, rule.firstMatch? code = none ↔ rule.count code = 0 := by
    intro rule
    rw [OpenerRule.firstMatch?, OpenerRule.count]
    split
    · rw [Pattern.firstMatch?, Option.map_eq_none_iff, Pattern.count, Expr.countHits_eq_zero_iff]
    · simp
  rw [firstOpener?, List.min?_eq_none_iff, List.filterMap_eq_nil_iff, countOpens_eq_sum,
    List.sum_eq_zero_iff_forall_eq_nat, List.forall_mem_map]
  exact forall₂_congr fun rule _ => hrule rule

theorem countOpens_of_blank (h : rules.Solid) (hcode : Text.isBlankText code = true) :
    rules.countOpens code = 0 := by
  rw [countOpens_eq_sum, List.sum_eq_zero_iff_forall_eq_nat]
  intro n hn
  obtain ⟨rule, hrule, rfl⟩ := List.mem_map.1 hn
  rw [OpenerRule.count, Pattern.count_of_isSolid (h.1 rule hrule) hcode, ite_self]

theorem countCloses_of_blank (h : rules.Solid) (hcode : Text.isBlankText code = true) :
    rules.countCloses code = 0 :=
  Pattern.count_of_isSolid h.2 hcode

end BlockRules

end CodeSpan
