import CodeSpan.Text.Basic

/-!
# Source texts

A source text is a list of lines. Splitting at line feeds keeps every other character, so
that joining a range of lines gives back exactly the text they came from. Positions count
lines and characters from zero and are shown counting from one.

Numbers that count things of a text are exact, for no text in memory is too large for them. A
number that is given from outside may be any word of 64 bits, and arithmetic on it can go out of
range. Where that is not checked the program stops, which is the outcome `none`.
-/

namespace CodeSpan

namespace Word

/-- The sum of two words, if it is a word. -/
def plus (a b : Nat) : Option Nat :=
  if a + b < UInt64.size then some (a + b) else none

/-- The difference of two words, if it is a word. -/
def minus (a b : Nat) : Option Nat :=
  if b ≤ a then some (a - b) else none

/-- The sum of two words, or the largest word if there is none. -/
def saturatingPlus (a b : UInt64) : UInt64 :=
  .ofNat (min (a.toNat + b.toNat) (UInt64.size - 1))

end Word

structure Position where
  line : Nat
  column : Nat
deriving DecidableEq

namespace Position

def shown (p : Position) : List Char :=
  Text.decimal (p.line + 1) ++ ':' :: Text.decimal (p.column + 1)

/-- Positions are ordered by line, then by column. -/
def notAfter (p q : Position) : Bool :=
  p.line < q.line || (p.line == q.line && p.column ≤ q.column)

def sort (ps : List Position) : List Position :=
  ps.mergeSort notAfter

end Position

structure Source where
  lines : List (List Char)
deriving DecidableEq

namespace Source

def ofText (s : List Char) : Source :=
  ⟨List.splitOn '\n' s⟩

def size (t : Source) : Nat :=
  t.lines.length

def isEmpty (t : Source) : Bool :=
  t.lines.isEmpty

def line? (t : Source) (i : Nat) : Option (List Char) :=
  t.lines[i]?

/-- The lines `first` to `last`, or up to the end if `last` lies beyond it. -/
def join (t : Source) (first last : Nat) : List Char :=
  List.intercalate ['\n'] ((t.lines.take (last + 1)).drop first)

/-- The same lines for any two words, the second of which may have no successor. -/
def joinWords (t : Source) (first last : UInt64) : List Char :=
  let stop := min (Word.saturatingPlus last 1) (.ofNat t.size)
  if stop ≤ first then []
  else List.intercalate ['\n'] ((t.lines.take stop.toNat).drop first.toNat)

end Source
end CodeSpan
