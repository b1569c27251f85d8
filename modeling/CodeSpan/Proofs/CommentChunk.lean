import CodeSpan.Proofs.Classify
import Mathlib.Data.List.Forall2

/-!
# Chunks of comment lines

A chunk holds nothing but comments: line comments, one block comment over several lines, or
block comments that each open and close on a line of their own. Wherever such a chunk may stand,
a scan leaves it in the region in which it came, and every line of it is a comment or blanked out.
-/

namespace CodeSpan.CommentSyntax

/-- Lines that hold nothing but comments, in the region in which their scan begins. -/
inductive Chunk (σ : CommentSyntax) : Region → List (List Char) → Prop where
  | lineComments {r : Region} {chunk : List (List Char)}
      (h : ∀ line ∈ chunk, σ.line <+: Text.trimStart line) : Chunk σ r chunk
  | block {indent tail last : List Char} {middle : List (List Char)}
      (indent_blank : Text.isBlankText indent = true)
      (first_unclosed : ¬ σ.blockClose <:+: indent ++ σ.blockOpen ++ tail)
      (middle_unclosed : ∀ line ∈ middle, ¬ σ.blockClose <:+: line)
      (last_closed : σ.blockClose <:+: last)
      (last_unopened : ¬ σ.blockOpen <:+: last)
      (last_no_lineComment : ¬ σ.line <+: Text.trimStart last) :
      Chunk σ .outside ((indent ++ σ.blockOpen ++ tail) :: (middle ++ [last]))
  | closedBlocks {r : Region} {chunk : List (List Char)}
      (h : ∀ line ∈ chunk, ∃ indent body tail, Text.isBlankText indent = true ∧
        Text.isBlankText tail = true ∧
        line = indent ++ σ.blockOpen ++ body ++ σ.blockClose ++ tail) : Chunk σ r chunk

variable {σ : CommentSyntax}

theorem regionAfter_of_forall {r : Region} {lines : List (List Char)}
    (h : ∀ line ∈ lines, (σ.classify r line).2 = r) : σ.regionAfter r lines = r := by
  induction lines with
  | nil => rfl
  | cons line lines ih =>
      rw [regionAfter_cons, h line List.mem_cons_self]
      exact ih fun l hl => h l (List.mem_cons_of_mem line hl)

/-- Lines that a scan leaves in the region in which it came, and of which it blanks every one. -/
structure BlankedIn (σ : CommentSyntax) (r : Region) (lines : List (List Char)) : Prop where
  region : σ.regionAfter r lines = r
  steps : List.Forall₂ (fun line step => step.1.Blanked line) lines (σ.scan r lines)

theorem blankedIn_of_forall {r : Region} {lines : List (List Char)}
    (h : ∀ line ∈ lines, (σ.classify r line).2 = r ∧ (σ.classify r line).1.Blanked line) :
    σ.BlankedIn r lines := by
  refine ⟨regionAfter_of_forall fun line hline => (h line hline).1, ?_⟩
  induction lines with
  | nil => exact .nil
  | cons line lines ih =>
      obtain ⟨hregion, hblanked⟩ := h line List.mem_cons_self
      have hrest := ih fun l hl => h l (List.mem_cons_of_mem line hl)
      rw [scan, hregion]
      exact .cons hblanked hrest

theorem silent_of_forall₂ {lines : List (List Char)} {steps : List (LineClass × Region)}
    (h : List.Forall₂ (fun line step => step.1.Blanked line) lines steps) :
    ∀ step ∈ steps, step.1.Silent := by
  induction h with
  | nil => exact List.forall_mem_nil _
  | cons hblanked _ ih => exact List.forall_mem_cons.2 ⟨silent_of_blanked hblanked, ih⟩

theorem Chunk.blankedIn (hσ : σ.Delimited) (hd : σ.Distinct) {r : Region}
    {chunk : List (List Char)} (h : σ.Chunk r chunk) : σ.BlankedIn r chunk := by
  cases h with
  | lineComments h =>
      apply blankedIn_of_forall
      intro line hline
      rw [classify_of_lineComment r (h line hline)]
      exact ⟨rfl, trivial⟩
  | closedBlocks h =>
      apply blankedIn_of_forall
      intro line hline
      obtain ⟨indent, body, tail, hi, ht, rfl⟩ := h line hline
      exact classify_of_closedBlock hσ hd r hi ht
  | @block indent tail last middle hi hfirst hmiddle hclose hopen hlast =>
      have hin := classify_of_unclosed_open hσ hd hi hfirst
      have hout := classify_inside_of_closed hσ hclose hopen hlast
      have hmid : σ.BlankedIn .inside middle := by
        apply blankedIn_of_forall
        intro line hline
        rw [classify_inside_of_unclosed hσ (hmiddle line hline)]
        exact ⟨rfl, trivial⟩
      have hend : List.Forall₂ (fun line step => step.1.Blanked line) [last]
          (σ.scan .inside [last]) := by
        rw [scan, hout]
        exact .cons trivial .nil
      constructor
      · rw [regionAfter_cons, hin, regionAfter_append, hmid.region, regionAfter_cons, hout]
        rfl
      · rw [scan, hin, scan_append, hmid.region]
        exact .cons trivial (List.rel_append hmid.steps hend)

theorem Chunk.silent (hσ : σ.Delimited) (hd : σ.Distinct) {r : Region}
    {chunk : List (List Char)} (h : σ.Chunk r chunk) :
    σ.regionAfter r chunk = r ∧ ∀ step ∈ σ.scan r chunk, step.1.Silent := by
  have hblanked := h.blankedIn hσ hd
  exact ⟨hblanked.region, silent_of_forall₂ hblanked.steps⟩

end CodeSpan.CommentSyntax
