import CodeSpan.Text.Basic
import CodeSpan.Pattern.Basic

/-!
# Queries

A query asks for a name, which is never empty, and may carry a hint: a piece of a line that is
expected to contain the name. Blanks around both are dropped, and a blank hint is no hint.
-/

namespace CodeSpan

/-- Whether lines that define the name are candidates. -/
inductive SearchMode where
  | declaration
  | usage
deriving DecidableEq

inductive QueryError where
  | emptyName
deriving DecidableEq

def QueryError.message : QueryError → List Char
  | .emptyName => "symbol name must not be empty".toList

structure Query where
  name : List Char
  hint : Option (List Char)
  mode : SearchMode
  name_ne : name ≠ []
  hint_ne : ∀ h ∈ hint, h ≠ []

namespace Query

def ofText (name : List Char) (hint : Option (List Char)) (mode : SearchMode) :
    Except QueryError Query :=
  let name := Text.trim name
  let hint := (hint.map Text.trim).filter fun h => !h.isEmpty
  if h : name = [] then .error .emptyName
  else .ok ⟨name, hint, mode, h, by
    intro t ht
    have := (Option.filter_eq_some_iff.1 (Option.mem_def.1 ht)).2
    simpa using this⟩

end Query
/-!
## Definition lines

A line defines a name when a definition keyword, blanks, possibly a receiver ending in a dot
or two colons, and the name follow each other on it. The pattern for this is put together from
the keywords and the name, in which every character with a meaning in patterns is escaped.
-/

namespace Pattern

def specialChars : List Char :=
  "\\.+*?()|[]\x7b\x7d^$#&-~".toList

def escape (s : List Char) : List Char :=
  s.flatMap fun c => if c ∈ specialChars then ['\\', c] else [c]

end Pattern

def definitionText (keywords : List (List Char)) (leaf : List Char) : List Char :=
  "(?:^|\\W)(?:".toList ++ ['|'].intercalate (keywords.map Pattern.escape) ++
    ")\\s+(?:[\\w:]+(?:\\.|::))?".toList ++ Pattern.escape leaf ++ "(?:[^\\w?!]|$)".toList

def definitionPattern? (keywords : List (List Char)) (leaf : List Char) : Option Pattern :=
  if keywords.isEmpty then none else Pattern.ofText? (definitionText keywords leaf)

end CodeSpan
