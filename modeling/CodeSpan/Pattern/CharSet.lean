import CodeSpan.Text.Basic
import CodeSpan.Text.CaseFold
import CodeSpan.Text.Word

/-!
# Sets of characters in patterns

A set is built from ranges and three named classes by union and complement. Ignoring case is
pushed to the leaves, so that a complement is taken after the case variants are added.
-/

namespace CodeSpan

inductive CharSet where
  | range (first last : Char)
  | blank
  | decimal
  | word
  | union (s t : CharSet)
  | compl (s : CharSet)
  | anyCase (s : CharSet)
deriving DecidableEq

namespace CharSet

def single (c : Char) : CharSet :=
  .range c c

/-- Every character but the end of a line. -/
def withinLine : CharSet :=
  .compl (.single '\n')

def mem : CharSet → Char → Bool
  | .range first last, c => first ≤ c && c ≤ last
  | .blank, c => Text.isBlank c
  | .decimal, c => Text.isDecimal c
  | .word, c => Text.isWord c
  | .union s t, c => s.mem c || t.mem c
  | .compl s, c => !s.mem c
  | .anyCase s, c => (Text.caseVariants c).any s.mem

def ignoringCase : CharSet → CharSet
  | .union s t => .union s.ignoringCase t.ignoringCase
  | .compl s => .compl s.ignoringCase
  | s => .anyCase s

@[simp] theorem mem_single {c d : Char} : (single c).mem d = true ↔ d = c := by
  simp only [single, mem, Bool.and_eq_true, decide_eq_true_eq]
  exact ⟨fun ⟨h, h'⟩ => Char.le_antisymm h' h, fun h => h ▸ ⟨Char.le_refl _, Char.le_refl _⟩⟩

theorem mem_single_eq (c d : Char) : (single c).mem d = (d == c) :=
  Bool.eq_iff_iff.2 (by rw [mem_single, beq_iff_eq])

theorem mem_blank (c : Char) : blank.mem c = Text.isBlank c := rfl

theorem mem_word (c : Char) : word.mem c = Text.isWord c := rfl

@[simp] theorem mem_union (s t : CharSet) (c : Char) :
    (union s t).mem c = (s.mem c || t.mem c) := rfl

@[simp] theorem mem_compl (s : CharSet) (c : Char) : (compl s).mem c = !s.mem c := rfl

end CharSet
end CodeSpan
