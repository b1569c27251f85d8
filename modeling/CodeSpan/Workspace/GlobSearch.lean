import CodeSpan.Workspace.Glob
import CodeSpan.Workspace.Tree

/-!
# Files that match a glob pattern

A pattern is followed part by part from the root, or from the current directory. Literal parts
are looked up, also when they stay or go up; all others are compared with the names in the
directory reached, in the order of names. Only a part that begins with a dot can match the
directory itself and the one above.
-/

namespace CodeSpan.Glob

/-- Where a literal name leads from a directory. -/
def step? (t : Tree) (l : Location) (name : List Char) : Option Location :=
  match name with
  | [] => some l
  | ['.'] => some l
  | ['.', '.'] => some l.dropLast
  | n => if (t.entryAt? (l ++ [n])).isSome then some (l ++ [n]) else none

def dotNames (ts : List GlobToken) : List (List Char) :=
  if ts.head? = some (.char '.') then [['.', '.'], ['.']].filter (matchesName ts) else []

def reach (t : Tree) : List Part → Location → List Location
  | [], l => [l]
  | .literal name :: ps, l =>
      if t.isDirectory l then (step? t l name).toList.flatMap (reach t ps) else []
  | .wildcard ts :: ps, l =>
      if t.isDirectory l then
        let names := dotNames ts ++ (t.children l).filter (matchesName ts)
        (names.filterMap (step? t l)).flatMap (reach t ps)
      else []
  | [.anyDepth], _ => []
  | .anyDepth :: p :: ps, l =>
      ((t.descendants l).filter fun m => m.getLast?.any p.matchesName).flatMap (reach t ps)

/-- The files that match a pattern; one that ends in a separator asks for directories. -/
def files (t : Tree) (current : Location) (pattern : Path) : Except GlobError (List Location) := do
  let ps ← parts pattern
  let start := if Path.isAbsolute pattern then [] else current
  if pattern.getLast? = some '/' then pure []
  else pure ((reach t ps start).filter t.isFile)

end CodeSpan.Glob
