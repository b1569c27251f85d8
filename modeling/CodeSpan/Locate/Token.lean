import CodeSpan.Text.Basic
import CodeSpan.Text.Bytes
import CodeSpan.Text.Occurrence
import CodeSpan.Text.Word

/-!
# Names in a line

A name occurs where its characters stand and it is not glued to its neighbours. A qualified
name is searched by its last part right after the separator before it. Places are ranges of
byte offsets.
-/

namespace CodeSpan

structure ByteRange where
  start : Nat
  stop : Nat
deriving DecidableEq

namespace ByteRange

def within (r outer : ByteRange) : Bool :=
  outer.start ≤ r.start && r.stop ≤ outer.stop

def ofOccurrence (needle : List Char) (o : Text.Occurrence) : ByteRange :=
  ⟨Text.byteLength o.before, Text.byteLength o.before + Text.byteLength needle⟩

end ByteRange

/-- Characters that may follow a name: blanks, brackets, bars, commas and semicolons. -/
def isRightBoundary (c : Char) : Bool :=
  Text.isBlank c || "()\x7b\x7d[]<>|,;".toList.contains c

/-- A side of the needle that is an identifier character must not touch another one on the
left, and needs a right boundary on the right. -/
def isBounded (needle : List Char) (o : Text.Occurrence) : Bool :=
  (!needle.head?.any Text.isIdent || o.before.getLast?.all fun c => !Text.isIdent c) &&
    (!needle.getLast?.any Text.isIdent || o.after.head?.all isRightBoundary)

def boundedMatches (needle s : List Char) : List ByteRange :=
  ((Text.occurrences needle s).filter (isBounded needle)).map (.ofOccurrence needle)

/-- The last part of a qualified name and the separator before it. -/
structure Qualified where
  separator : List Char
  leaf : List Char
deriving DecidableEq

namespace Qualified

def needle (q : Qualified) : List Char :=
  q.separator ++ q.leaf

/-- The parting that leaves the shorter leaf, the later one if they are equal. -/
def shorter (best : Option Qualified) (q : Qualified) : Option Qualified :=
  match best with
  | none => some q
  | some p => if q.leaf.length ≤ p.leaf.length then some q else some p

/-- Parts a name at the separator whose last occurrence ends furthest to the right. -/
def split? (name : List Char) (separators : List (List Char)) : Option Qualified :=
  let partings := separators.filterMap fun separator =>
    (Text.lastOccurrence? separator name).map fun o => ⟨separator, o.after⟩
  (partings.foldl shorter none).filter fun q => !q.leaf.isEmpty

/-- The places of the leaf right after its separator, not glued to a longer identifier. -/
def findIn (q : Qualified) (s : List Char) : List ByteRange :=
  let found := (Text.occurrences q.needle s).filter fun o =>
    !q.needle.getLast?.any Text.isIdent || o.after.head?.all fun c => !Text.isIdent c
  found.map fun o =>
    let r := ByteRange.ofOccurrence q.needle o
    { r with start := r.start + Text.byteLength q.separator }

end Qualified
end CodeSpan
