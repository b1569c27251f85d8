import CodeSpan.Source
import Mathlib.Data.List.Basic

/-!
# Segments of a text

A segment is a range of consecutive lines taken as a text of its own. Lines that hold no line
feed survive joining and splitting, so the joined text of a segment is read back as exactly the
lines it came from.
-/

namespace CodeSpan

namespace Text

variable {sep c : Char} {s piece : List Char} {rest : List (List Char)}

theorem splitOn_cons_self (sep : Char) (s : List Char) :
    List.splitOn sep (sep :: s) = [] :: List.splitOn sep s := by
  rw [List.splitOn_cons_eq_if_modifyHead, if_pos (beq_self_eq_true sep)]

theorem splitOn_cons_of_ne (hc : c ≠ sep) (h : List.splitOn sep s = piece :: rest) :
    List.splitOn sep (c :: s) = (c :: piece) :: rest := by
  rw [List.splitOn_cons_eq_if_modifyHead, if_neg (by simpa using hc), h, List.modifyHead_cons]

/-- There is one piece more than separators. -/
theorem length_splitOn (sep : Char) (s : List Char) :
    (List.splitOn sep s).length = s.count sep + 1 := by
  induction s with
  | nil => rfl
  | cons c s ih =>
      by_cases hc : c = sep
      · rw [hc, splitOn_cons_self, List.length_cons, ih, List.count_cons_self]
      · obtain ⟨piece, rest, hs⟩ := List.exists_cons_of_ne_nil (List.splitOn_ne_nil sep s)
        rw [splitOn_cons_of_ne hc hs, List.count_cons_of_ne hc, ← ih, hs]
        rfl

theorem intercalate_append {front back : List (List Char)} (hfront : front ≠ [])
    (hback : back ≠ []) :
    List.intercalate [sep] (front ++ back) =
      List.intercalate [sep] front ++ sep :: List.intercalate [sep] back := by
  induction front with
  | nil => exact absurd rfl hfront
  | cons piece front ih =>
      by_cases hnil : front = []
      · subst hnil
        rw [List.singleton_append, List.intercalate_cons_of_ne_nil hback,
          List.intercalate_singleton, List.append_assoc, List.singleton_append]
      · rw [List.cons_append, List.intercalate_cons_of_ne_nil (by simp [hnil]), ih hnil,
          List.intercalate_cons_of_ne_nil hnil, List.append_assoc, List.append_assoc,
          List.append_assoc]

theorem sublist_of_mem_splitOn (h : piece ∈ List.splitOn sep s) : piece.Sublist s := by
  induction s generalizing piece with
  | nil =>
      rw [List.splitOn_nil, List.mem_singleton] at h
      exact h ▸ List.Sublist.refl []
  | cons c s ih =>
      by_cases hc : c = sep
      · rw [hc, splitOn_cons_self] at h
        rcases List.mem_cons.1 h with rfl | h
        · exact List.nil_sublist _
        · exact (ih h).cons c
      · obtain ⟨first, rest, hs⟩ := List.exists_cons_of_ne_nil (List.splitOn_ne_nil sep s)
        rw [splitOn_cons_of_ne hc hs] at h
        rw [hs] at ih
        rcases List.mem_cons.1 h with rfl | h
        · exact (ih List.mem_cons_self).cons_cons c
        · exact (ih (List.mem_cons_of_mem first h)).cons c

/-- The last piece is empty only behind a separator. -/
theorem getLast?_splitOn_ne (hne : s ≠ []) (hlast : s.getLast? ≠ some sep) :
    (List.splitOn sep s).getLast? ≠ some [] := by
  intro hempty
  obtain ⟨pieces, hpieces⟩ := List.getLast?_eq_some_iff.1 hempty
  have hjoin : List.intercalate [sep] (List.splitOn sep s) = s := List.intercalate_splitOn sep
  rw [hpieces] at hjoin
  by_cases hnil : pieces = []
  · subst hnil
    exact hne hjoin.symm
  · rw [intercalate_append hnil (List.cons_ne_nil _ _), List.intercalate_singleton] at hjoin
    exact hlast (by rw [← hjoin, List.getLast?_concat])

theorem notMem_of_mem_splitOn (h : piece ∈ List.splitOn sep s) : sep ∉ piece := by
  induction s generalizing piece with
  | nil =>
      rw [List.splitOn_nil, List.mem_singleton] at h
      simp [h]
  | cons c s ih =>
      by_cases hc : c = sep
      · rw [hc, splitOn_cons_self] at h
        rcases List.mem_cons.1 h with rfl | hmem
        · exact List.not_mem_nil
        · exact ih hmem
      · obtain ⟨first, rest, hs⟩ := List.exists_cons_of_ne_nil (List.splitOn_ne_nil sep s)
        rw [splitOn_cons_of_ne hc hs] at h
        rw [hs] at ih
        rcases List.mem_cons.1 h with rfl | hmem
        · rw [List.mem_cons, not_or]
          exact ⟨Ne.symm hc, ih List.mem_cons_self⟩
        · exact ih (List.mem_cons_of_mem first hmem)

end Text

namespace Source

/-- The lines `first` to `last` as a text of their own. -/
def segment (t : Source) (first last : Nat) : Source :=
  ⟨(t.lines.take (last + 1)).drop first⟩

/-- No line holds a line feed, as in every text that was split at its line feeds. -/
def Split (t : Source) : Prop :=
  ∀ line ∈ t.lines, '\n' ∉ line

variable {t : Source} {first last k : Nat}

theorem split_ofText (s : List Char) : (ofText s).Split :=
  fun _ h => Text.notMem_of_mem_splitOn h

theorem Split.segment (h : t.Split) (first last : Nat) : (t.segment first last).Split :=
  fun line hline => h line (List.mem_of_mem_take (List.mem_of_mem_drop hline))

theorem size_segment (first : Nat) (h : last < t.size) :
    (t.segment first last).size = last + 1 - first := by
  rw [size] at h
  rw [size, segment, List.length_drop, List.length_take, Nat.min_eq_left h]

theorem lines_segment_ne_nil (hle : first ≤ last) (hfirst : first < t.size) :
    (t.segment first last).lines ≠ [] := by
  rw [size] at hfirst
  rw [segment, ne_eq, List.drop_eq_nil_iff, List.length_take]
  omega

theorem getElem?_segment (h : first + k ≤ last) :
    (t.segment first last).lines[k]? = t.lines[first + k]? := by
  rw [segment, List.getElem?_drop, List.getElem?_take_of_lt (Nat.lt_succ_of_le h)]

theorem take_segment (h : first + k ≤ last) :
    (t.segment first last).lines.take (k + 1) = (t.lines.drop first).take (k + 1) := by
  rw [segment, List.drop_take, List.take_take, Nat.min_eq_left (by omega)]

theorem segment_of_size_le (h : t.size ≤ last + 1) : t.segment 0 last = t := by
  rw [segment, List.take_of_length_le h, List.drop_zero]

/-- A text with lines is the segment of all its lines. -/
theorem segment_zero (h : 0 < t.size) : t.segment 0 (t.size - 1) = t :=
  segment_of_size_le (by omega)

theorem join_eq_intercalate_segment (t : Source) (first last : Nat) :
    t.join first last = List.intercalate ['\n'] (t.segment first last).lines := rfl

theorem join_segment (h : first ≤ last) :
    (t.segment first last).join 0 (last - first) = t.join first last := by
  have hsize : (t.segment first last).size ≤ last - first + 1 := by
    rw [size, segment, List.length_drop, List.length_take]
    omega
  rw [join_eq_intercalate_segment, segment_of_size_le hsize, join_eq_intercalate_segment]

/-- A segment of a segment is a segment of the whole text. -/
theorem segment_segment {inner : Nat} (h : first + inner ≤ last) (k : Nat) :
    (t.segment first last).segment k inner = t.segment (first + k) (first + inner) := by
  have hsum : first + inner + 1 - first = inner + 1 := by omega
  have hlines : (t.segment first last).lines.take (inner + 1) =
      (t.lines.take (first + inner + 1)).drop first := by
    rw [take_segment h, List.drop_take, hsum]
  rw [segment, hlines, List.drop_drop, segment]

theorem size_ofText_pos (s : List Char) : 0 < (ofText s).size :=
  List.length_pos_of_ne_nil (List.splitOn_ne_nil '\n' s)

theorem ofText_join (h : t.Split) (hle : first ≤ last) (hfirst : first < t.size) :
    ofText (t.join first last) = t.segment first last := by
  rw [ofText, join_eq_intercalate_segment]
  congr 1
  exact List.splitOn_intercalate '\n' (h.segment first last) (lines_segment_ne_nil hle hfirst)

end Source
end CodeSpan
