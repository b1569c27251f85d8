import Mathlib.Data.List.Infix
import Mathlib.Data.List.Intervals

/-!
# Standalone words

A word stands alone where the characters next to it do not make it a part of a longer name. Two
such places have a character between them. When the places are passed from left to right and
each one is dropped that has only one character between itself and the last one kept, nothing is
lost just when no two places are so close.
-/

namespace CodeSpan

namespace Text

/-- The word stands behind `i` characters of the text, next to such characters only as are
allowed there. -/
structure StandsAlone (left right : Char → Bool) (word s : List Char) (i : Nat) : Prop where
  here : word <+: s.drop i
  left_ok : (s.take i).getLast?.all left = true
  right_ok : (s.drop (i + word.length)).head?.all right = true

theorem standsAlone_iff {left right : Char → Bool} {word s : List Char} {i : Nat} :
    StandsAlone left right word s i ↔
      (word <+: s.drop i ∧ (s.drop (i + word.length)).head?.all right = true) ∧
        (s.take i).getLast?.all left = true :=
  ⟨fun ⟨h, h', h''⟩ => ⟨⟨h, h''⟩, h'⟩, fun ⟨⟨h, h''⟩, h'⟩ => ⟨h, h', h''⟩⟩

instance (left right : Char → Bool) (word s : List Char) (i : Nat) :
    Decidable (StandsAlone left right word s i) :=
  decidable_of_iff _ standsAlone_iff.symm

def standalonePlaces (left right : Char → Bool) (word s : List Char) : List Nat :=
  (List.range s.length).filter (StandsAlone left right word s ·)

/-- Of places in order, those that remain if each place is dropped that lies exactly `gap` behind
the last one that remains. -/
def apart (gap : Nat) : List Nat → List Nat
  | i :: j :: l => if j = i + gap then i :: apart gap l else i :: apart gap (j :: l)
  | l => l

section Apart

variable {gap i : Nat} {l : List Nat}

theorem apart_cons (h : (i :: l).Pairwise fun a b => a + gap ≤ b) (hgap : 0 < gap) :
    apart gap (i :: l) = i :: apart gap (l.filter (i + gap < ·)) := by
  cases l with
  | nil => rfl
  | cons j l =>
      rw [List.pairwise_cons, List.pairwise_cons] at h
      have hle : i + gap ≤ j := h.1 j List.mem_cons_self
      have hlater : l.filter (i + gap < ·) = l := by
        rw [List.filter_eq_self]
        intro k hk
        have hjk := h.2.1 k hk
        exact decide_eq_true (by omega)
      by_cases hj : j = i + gap
      · rw [apart, if_pos hj, List.filter_cons_of_neg (by simp [hj]), hlater]
      · have hlt : decide (i + gap < j) = true := decide_eq_true (by omega)
        rw [apart, if_neg hj, List.filter_cons, if_pos hlt, hlater]

theorem length_apart_le (gap : Nat) (l : List Nat) : (apart gap l).length ≤ l.length := by
  fun_induction apart gap l with
  | case1 i l ih => simp only [List.length_cons]; omega
  | case2 i j l hj ih => simp only [List.length_cons] at ih ⊢; omega
  | case3 l _ => exact Nat.le_refl _

/-- Nothing is dropped just when no two of the places are exactly `gap` apart. -/
theorem length_apart_eq_iff (h : l.Pairwise fun a b => a + gap ≤ b) (hgap : 0 < gap) :
    (apart gap l).length = l.length ↔ ∀ i ∈ l, i + gap ∉ l := by
  fun_induction apart gap l with
  | case1 i l ih =>
      have hle := length_apart_le gap l
      simp only [List.length_cons]
      constructor
      · omega
      · intro hno
        exact absurd (by simp) (hno i List.mem_cons_self)
  | case2 i j l hj ih =>
      rw [List.pairwise_cons] at h
      rw [List.length_cons, List.length_cons, Nat.add_right_cancel_iff, ih h.2]
      constructor
      · intro hno a ha hmem
        rcases List.mem_cons.1 ha with rfl | ha
        · rcases List.mem_cons.1 hmem with hself | hmem
          · omega
          · rcases List.mem_cons.1 hmem with hnext | hlater
            · exact hj hnext.symm
            · have hle := h.1 j List.mem_cons_self
              have hfar := (List.pairwise_cons.1 h.2).1 _ hlater
              omega
        · rcases List.mem_cons.1 hmem with hback | hmem
          · have hle := h.1 a ha
            omega
          · exact hno a ha hmem
      · intro hno a ha hmem
        exact hno a (List.mem_cons_of_mem i ha) (List.mem_cons_of_mem i hmem)
  | case3 l hshort =>
      refine iff_of_true rfl fun a ha hmem => ?_
      match l, hshort with
      | [], _ => cases ha
      | [b], _ =>
          rw [List.mem_singleton] at ha hmem
          omega
      | b :: c :: l, hshort => exact hshort b c l rfl

end Apart

def standaloneFrom (left right : Char → Bool) (word s : List Char) (lo : Nat) : List Nat :=
  (List.Ico lo s.length).filter (StandsAlone left right word s ·)

section Standalone

variable {left right : Char → Bool} {word s : List Char} {i j lo hi : Nat}

theorem standaloneFrom_zero (left right : Char → Bool) (word s : List Char) :
    standaloneFrom left right word s 0 = standalonePlaces left right word s := by
  rw [standaloneFrom, standalonePlaces, List.Ico.zero_bot]

theorem StandsAlone.add_length_le (h : StandsAlone left right word s i) (hne : word ≠ []) :
    i + word.length ≤ s.length := by
  have hlen := h.here.length_le
  have hpos := List.length_pos_of_ne_nil hne
  rw [List.length_drop] at hlen
  omega

theorem mem_standaloneFrom (hne : word ≠ []) :
    i ∈ standaloneFrom left right word s lo ↔ lo ≤ i ∧ StandsAlone left right word s i := by
  rw [standaloneFrom, List.mem_filter, List.Ico.mem, decide_eq_true_iff]
  constructor
  · rintro ⟨⟨hlo, -⟩, h⟩
    exact ⟨hlo, h⟩
  · rintro ⟨hlo, h⟩
    have hle := h.add_length_le hne
    have hpos := List.length_pos_of_ne_nil hne
    exact ⟨⟨hlo, by omega⟩, h⟩

theorem filter_standaloneFrom (hle : lo ≤ hi) :
    (standaloneFrom left right word s lo).filter (hi ≤ ·) =
      standaloneFrom left right word s hi := by
  rw [standaloneFrom, List.filter_comm, List.Ico.filter_le, Nat.max_eq_right hle, standaloneFrom]

theorem standaloneFrom_congr (hle : lo ≤ hi)
    (hno : ∀ i, lo ≤ i → i < hi → ¬ StandsAlone left right word s i) :
    standaloneFrom left right word s lo = standaloneFrom left right word s hi := by
  rw [← filter_standaloneFrom hle, eq_comm, List.filter_eq_self]
  intro i hi
  rw [standaloneFrom, List.mem_filter, List.Ico.mem, decide_eq_true_iff] at hi
  rw [decide_eq_true_iff]
  by_contra! hlt
  exact hno i hi.1.1 hlt hi.2

theorem standaloneFrom_eq_nil (h : s.length ≤ lo) : standaloneFrom left right word s lo = [] := by
  rw [standaloneFrom, List.Ico.eq_nil_of_le h, List.filter_nil]

theorem standaloneFrom_of_standsAlone (h : StandsAlone left right word s i) (hne : word ≠ []) :
    standaloneFrom left right word s i = i :: standaloneFrom left right word s (i + 1) := by
  have hle := h.add_length_le hne
  have hpos := List.length_pos_of_ne_nil hne
  rw [standaloneFrom, List.Ico.eq_cons (by omega), List.filter_cons_of_pos (by simpa using h),
    standaloneFrom]

/-- A word that stands alone has a character between itself and any place of it before. -/
theorem StandsAlone.add_le (hj : StandsAlone left right word s j) (hi : word <+: s.drop i)
    (hne : word ≠ []) (hword : word.any left = false) (hlt : i < j) :
    i + (word.length + 1) ≤ j := by
  by_contra! hnear
  have hle := hj.add_length_le hne
  have hpos := List.length_pos_of_ne_nil hne
  -- The character before the second word would belong to the first one.
  obtain ⟨k, rfl⟩ := Nat.exists_eq_add_of_lt hlt
  have hk : k < word.length := by omega
  have hget : s[i + k]? = some word[k] := by
    rw [← List.getElem?_drop, ← List.getElem?_eq_getElem hk]
    obtain ⟨rest, hrest⟩ := hi
    rw [← hrest, List.getElem?_append_left hk]
  have hlast : (s.take (i + k + 1)).getLast? = some word[k] := by
    rw [List.getLast?_take, if_neg (by omega), Nat.add_sub_cancel, hget]
    rfl
  have hleft := hj.left_ok
  rw [hlast, Option.all_some] at hleft
  exact List.any_eq_false.1 hword _ (List.getElem_mem hk) hleft

theorem pairwise_standaloneFrom (hne : word ≠ []) (hword : word.any left = false) (lo : Nat) :
    (standaloneFrom left right word s lo).Pairwise fun i j => i + (word.length + 1) ≤ j := by
  have hsorted := (List.Ico.pairwise_lt lo s.length).filter (StandsAlone left right word s ·)
  apply hsorted.imp_of_mem
  intro i j hi hj hlt
  exact ((mem_standaloneFrom hne).1 hj).2.add_le ((mem_standaloneFrom hne).1 hi).2.here hne hword
    hlt

/-- Behind a word that remains the next place must leave room for two characters. -/
theorem apart_standaloneFrom (h : StandsAlone left right word s i) (hne : word ≠ [])
    (hword : word.any left = false) :
    apart (word.length + 1) (standaloneFrom left right word s i) =
      i :: apart (word.length + 1)
        (standaloneFrom left right word s (min (i + (word.length + 1)) s.length + 1)) := by
  have hpair : (standaloneFrom left right word s i).Pairwise _ :=
    pairwise_standaloneFrom hne hword i
  rw [standaloneFrom_of_standsAlone h hne] at hpair ⊢
  have hfilter : (standaloneFrom left right word s (i + 1)).filter (i + (word.length + 1) < ·) =
      standaloneFrom left right word s (i + (word.length + 1) + 1) :=
    filter_standaloneFrom (by omega)
  have hle := h.add_length_le hne
  rw [apart_cons hpair (Nat.succ_pos _), hfilter]
  congr 2
  refine (standaloneFrom_congr (by omega) ?_).symm
  intro j hlo hhi hj
  have hle := hj.add_length_le hne
  have hpos := List.length_pos_of_ne_nil hne
  omega

end Standalone

end Text

end CodeSpan
