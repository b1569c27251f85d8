/-!
# Paths

A path is a text. Its components ignore repeated separators and dots that stand for the
directory already reached; a dot is kept only at the start of a relative path. Joining two
paths keeps the second one alone when it is absolute.
-/

namespace CodeSpan

abbrev Path := List Char

namespace Path

inductive Component where
  | root
  | here
  | up
  | name (n : List Char)
deriving DecidableEq

namespace Component

def text : Component → List Char
  | .root => ['/']
  | .here => ['.']
  | .up => ['.', '.']
  | .name n => n

/-- A piece between separators, unless it is empty or a dot. -/
def ofPiece? (piece : List Char) : Option Component :=
  match piece with
  | [] => none
  | ['.'] => none
  | ['.', '.'] => some .up
  | _ => some (.name piece)

end Component

def isAbsolute (p : Path) : Bool :=
  p.head? == some '/'

def components (p : Path) : List Component :=
  let pieces := List.splitOn '/' p
  let body := pieces.filterMap Component.ofPiece?
  if isAbsolute p then .root :: body
  else if pieces.head? == some ['.'] then .here :: body
  else body

def join (base p : Path) : Path :=
  if isAbsolute p || base.isEmpty then p
  else if base.getLast? == some '/' then base ++ p
  else base ++ '/' :: p

def ofComponents (cs : List Component) : Path :=
  cs.foldl (fun p c => join p c.text) []

def fileName? (p : Path) : Option (List Char) :=
  match (components p).getLast? with
  | some (.name n) => some n
  | _ => none

/-- What follows the last dot of a file name, if something stands before that dot. -/
def extensionOf? (name : List Char) : Option (List Char) :=
  let rest := name.reverse.dropWhile (· != '.')
  match rest with
  | [] => none
  | ['.'] => none
  | _ :: _ => some (name.reverse.takeWhile (· != '.')).reverse

/-!
## Relative paths

The path that leads from a base directory to a target, found by comparing components. The
steps up from the base are counted by its components alone, so there is no answer when the
base itself steps up after the two paths part.
-/

/-- The steps after the common components; `stepped` says that some were already taken. -/
def stepsFrom? (stepped : Bool) : List Component → List Component → Option (List Component)
  | [], [] => some []
  | target, [] => some target
  | [], _ :: base => (stepsFrom? true [] base).map (.up :: ·)
  | t :: target, b :: base =>
      if !stepped && t = b then stepsFrom? false target base
      else match b with
        | .here => (stepsFrom? true target base).map (t :: ·)
        | .up => none
        | _ => some (.up :: base.map (fun _ => .up) ++ t :: target)

def relative? (base target : Path) : Option Path :=
  if isAbsolute target != isAbsolute base then
    if isAbsolute target then some target else none
  else (stepsFrom? false (components target) (components base)).map ofComponents

end Path
end CodeSpan
