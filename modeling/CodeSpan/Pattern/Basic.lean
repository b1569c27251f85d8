import CodeSpan.Pattern.Reader
import CodeSpan.Pattern.Search

/-!
# Patterns

A pattern keeps the text it was written as together with the expression read from it.
-/

namespace CodeSpan

structure Pattern where
  text : List Char
  expr : Expr
  read_text : Pattern.read? text = some expr

namespace Pattern

def ofText? (text : List Char) : Option Pattern :=
  match h : read? text with
  | none => none
  | some expr => some ⟨text, expr, h⟩

/-- A pattern written into the library, read when the library is checked. -/
def literal (text : List Char) (h : (read? text).isSome = true := by decide) : Pattern :=
  ⟨text, (read? text).get h, (Option.some_get h).symm⟩

def count (p : Pattern) (s : List Char) : Nat :=
  p.expr.countHits s

def isMatch (p : Pattern) (s : List Char) : Bool :=
  p.expr.matchesWithin s

/-- The byte offset at which the leftmost hit starts. -/
def firstMatch? (p : Pattern) (s : List Char) : Option Nat :=
  (p.expr.find? s).map (·.first.offset)

theorem ofText?_isSome (text : List Char) : (ofText? text).isSome = (read? text).isSome := by
  unfold ofText?
  split <;> simp_all

theorem text_of_ofText? {text : List Char} {p : Pattern} (h : ofText? text = some p) :
    p.text = text := by
  unfold ofText? at h
  split at h
  · cases h
  · cases h
    rfl

end Pattern
end CodeSpan
