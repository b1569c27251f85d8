import CodeSpan.Comment
import Mathlib.Data.List.Basic

/-!
# Scans of parts of a text

The lines after a cut depend on the lines before it only through the region at the cut. Code is
read outside comments only, so a scan may start anew on any line that is code in a longer scan.
-/

namespace CodeSpan.CommentSyntax

variable (σ : CommentSyntax)

@[simp] theorem length_classes (lines : List (List Char)) :
    (σ.classes lines).length = lines.length := by
  simp [classes]

@[simp] theorem regionAfter_nil (r : Region) : σ.regionAfter r [] = r := rfl

@[simp] theorem regionAfter_cons (r : Region) (line : List Char) (lines : List (List Char)) :
    σ.regionAfter r (line :: lines) = σ.regionAfter (σ.classify r line).2 lines := rfl

theorem regionAfter_append (r : Region) (lines more : List (List Char)) :
    σ.regionAfter r (lines ++ more) = σ.regionAfter (σ.regionAfter r lines) more := by
  simp [regionAfter, List.foldl_append]

theorem classes_append (lines more : List (List Char)) :
    σ.classes (lines ++ more) =
      σ.classes lines ++ (σ.scan (σ.regionAfter .outside lines) more).map (·.1) := by
  simp [classes, scan_append]

/-- The classes of the first lines do not depend on the lines that follow. -/
theorem classes_take (lines : List (List Char)) (n : Nat) :
    (σ.classes lines).take n = σ.classes (lines.take n) := by
  have happ := σ.classes_append (lines.take n) (lines.drop n)
  rw [List.take_append_drop] at happ
  rw [happ]
  by_cases hn : n ≤ lines.length
  · exact List.take_left' (by simp [hn])
  · have hlen : lines.length ≤ n := by omega
    rw [List.drop_eq_nil_of_le hlen, List.take_of_length_le (by simp [scan, hlen])]
    simp [scan]

theorem classes_drop_of_outside {lines : List (List Char)} {n : Nat}
    (h : σ.regionAfter .outside (lines.take n) = .outside) :
    (σ.classes lines).drop n = σ.classes (lines.drop n) := by
  have happ := σ.classes_append (lines.take n) (lines.drop n)
  rw [List.take_append_drop, h] at happ
  rw [happ]
  by_cases hn : n ≤ lines.length
  · exact List.drop_left' (by simp [hn])
  · have hlen : lines.length ≤ n := by omega
    rw [List.drop_eq_nil_of_le hlen]
    simp [scan, classes, hlen]

theorem getElem?_scan (r : Region) (lines : List (List Char)) (i : Nat) :
    (σ.scan r lines)[i]? =
      lines[i]?.map fun line => σ.classify (σ.regionAfter r (lines.take i)) line := by
  induction lines generalizing r i with
  | nil => simp [scan]
  | cons line lines ih =>
      cases i with
      | zero => simp [scan]
      | succ i => simpa [scan] using ih _ i

/-- Every line is classified in the region in which the lines before it leave the scan. -/
theorem getElem?_classes (lines : List (List Char)) (i : Nat) :
    (σ.classes lines)[i]? =
      lines[i]?.map fun line => (σ.classify (σ.regionAfter .outside (lines.take i)) line).1 := by
  rw [classes, List.getElem?_map, getElem?_scan, Option.map_map]
  rfl

theorem classify_inside_fst (line : List Char) : (σ.classify .inside line).1 = .comment := by
  unfold classify
  by_cases hline : σ.isLineComment line = true
  · rw [if_pos hline]
  · rw [if_neg hline]
    cases σ.closeIndex? line with
    | none => cases σ.openIndex? line <;> rfl
    | some stop =>
        cases σ.openIndex? line with
        | none => rfl
        | some start => dsimp only; split <;> rfl

theorem region_eq_outside_of_code {r : Region} {line code : List Char}
    (h : (σ.classify r line).1 = .code code) : r = .outside := by
  cases r with
  | outside => rfl
  | inside =>
      rw [classify_inside_fst] at h
      cases h

/-- A line that is code stands outside every comment that began before it. -/
theorem regionAfter_of_code {lines : List (List Char)} {i : Nat} {code : List Char}
    (h : (σ.classes lines)[i]? = some (.code code)) :
    σ.regionAfter .outside (lines.take i) = .outside := by
  rw [getElem?_classes, Option.map_eq_some_iff] at h
  obtain ⟨line, -, hclass⟩ := h
  exact σ.region_eq_outside_of_code hclass

end CodeSpan.CommentSyntax
