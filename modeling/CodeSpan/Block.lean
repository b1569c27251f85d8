import CodeSpan.Source
import CodeSpan.Dialect.Basic

/-!
# Blocks of a source text

A span is a range of whole lines with its text. It is balanced when it was found by counting
openers and closers, and otherwise a window of fixed size that ends with the text at the
latest.
-/

namespace CodeSpan

inductive SpanKind where
  | balanced
  | window
deriving DecidableEq

/-- The text of the lines `startLine` to `endLine`. -/
structure BlockSpan where
  startLine : Nat
  endLine : Nat
  text : List Char
  kind : SpanKind
deriving DecidableEq

namespace BlockSpan

def ofLines (t : Source) (startLine endLine : Nat) (kind : SpanKind) : BlockSpan :=
  ⟨startLine, endLine, t.join startLine endLine, kind⟩

def isFallback (s : BlockSpan) : Bool :=
  s.kind = .window

def lineCount (s : BlockSpan) : Nat :=
  s.endLine - s.startLine + 1

/-- A window of `size` lines, cut off at the end of the text. The line behind an uncut window has
to be a word, whatever the end of the text. -/
def window (t : Source) (startLine size : Nat) : Option BlockSpan := do
  let behind ← Word.plus startLine size
  let endLine ← Word.minus behind 1
  let last ← Word.minus t.size 1
  return .ofLines t startLine (min endLine last) .window

end BlockSpan

/-!
## Counting a block

Openers and closers are counted line by line on the code that comments leave. A block ends on
the first line where both counts agree and are not zero. A dialect with a window gives up once
the window is used up without an opener.
-/

/-- Running totals of openers and closers. -/
structure Tally where
  opened : Nat
  closed : Nat
deriving DecidableEq

namespace Tally

def add (n : Tally) (rules : BlockRules) (line : LineClass) : Tally :=
  match line with
  | .comment => n
  | .code code => ⟨n.opened + rules.countOpens code, n.closed + rules.countCloses code⟩

def Balanced (n : Tally) : Prop :=
  n.opened = n.closed ∧ n.opened ≠ 0

instance (n : Tally) : Decidable n.Balanced :=
  inferInstanceAs (Decidable (_ ∧ _))

end Tally

/-- How a count ends: balanced at some distance from the start line, or still unclosed. -/
inductive Ending where
  | balanced (distance : Nat)
  | unclosed (tally : Tally)
deriving DecidableEq

/-- Whether the window is used up at some distance from the start and nothing was opened. -/
def Fallback.exhausted (f : Fallback) (distance : Nat) (n : Tally) : Bool :=
  match f with
  | .fail => false
  | .window size => n.opened = 0 && size ≤ distance + 1

def countBlock (rules : BlockRules) (f : Fallback) (distance : Nat) (n : Tally) :
    List LineClass → Ending
  | [] => .unclosed n
  | line :: lines =>
      let n := n.add rules line
      if n.Balanced then .balanced distance
      else if f.exhausted distance n then .unclosed n
      else countBlock rules f (distance + 1) n lines

/-!
## Extracting a block

The start line decides which rules count the block and whether it is already open. A count
that balances gives the lines up to there; any other count gives the window of the dialect, or
an error if it has none. The program stops if the window does.
-/

inductive ExtractError where
  | startOutOfRange (line size : Nat)
  | unbalanced (startLine opened closed : Nat)
deriving DecidableEq

def ExtractError.message : ExtractError → List Char
  | .startOutOfRange line size =>
      "start line ".toList ++ Text.decimal line ++ " is past the end of the source (".toList ++
        Text.decimal size ++ " lines)".toList
  | .unbalanced startLine opened closed =>
      "block starting at line ".toList ++ Text.decimal startLine ++ " never closed (".toList ++
        Text.decimal opened ++ " opened, ".toList ++ Text.decimal closed ++ " closed)".toList

/-- The rules that count a block and the number of openers before its start line. -/
def Dialect.selectRules (d : Dialect) (first : LineClass) : BlockRules × Nat :=
  let code := first.code?.getD []
  let primary := d.blocks.firstOpener? code
  let implicit := if d.implicitOpen && primary.isNone then 1 else 0
  match d.inlineBlocks with
  | none => (d.blocks, implicit)
  | some rules =>
      match rules.firstOpener? code with
      | none => (d.blocks, implicit)
      | some offset => if primary.all (offset < ·) then (rules, 0) else (d.blocks, implicit)

/-- Extracts the block that starts on the given line. -/
def extract (t : Source) (start : Nat) (d : Dialect) : Option (Except ExtractError BlockSpan) :=
  match d.comments.classes (t.lines.drop start) with
  | [] => some (.error (.startOutOfRange start t.size))
  | first :: rest =>
      let (rules, opened) := d.selectRules first
      match countBlock rules d.fallback 0 ⟨opened, 0⟩ (first :: rest), d.fallback with
      | .balanced distance, _ => some (.ok (.ofLines t start (start + distance) .balanced))
      | .unclosed _, .window size => (BlockSpan.window t start size).map .ok
      | .unclosed n, .fail => some (.error (.unbalanced start n.opened n.closed))

end CodeSpan
