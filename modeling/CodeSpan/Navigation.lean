import CodeSpan.Block
import CodeSpan.Locate.Search

/-!
# Resolving a name

A name is resolved by locating it and extracting the block that starts on its line. A
sequence of queries moves from block to block: each success makes the text of its block the
text of the next query, and a failure leaves the text as it is. The program stops where an
extraction does.
-/

namespace CodeSpan

structure Resolution where
  position : Position
  span : BlockSpan
deriving DecidableEq

inductive ResolveError where
  | notFound (name : List Char)
  | extract (e : ExtractError)
deriving DecidableEq

def ResolveError.message : ResolveError → List Char
  | .notFound name => "could not find '".toList ++ name ++ "' in the source".toList
  | .extract e => e.message

def resolve (t : Source) (q : Query) (d : Dialect) : Option (Except ResolveError Resolution) :=
  match locate? t q d with
  | none => some (.error (.notFound q.name))
  | some position =>
      (CodeSpan.extract t position.line d).map fun
        | .error e => .error (.extract e)
        | .ok span => .ok ⟨position, span⟩

/-- Why a step of a walk through blocks failed. -/
inductive StepError where
  | query (e : QueryError)
  | resolve (e : ResolveError)
deriving DecidableEq

def takeStep (text : List Char) (q : Except QueryError Query) (d : Dialect) :
    Option (Except StepError Resolution) :=
  match q with
  | .error e => some (.error (.query e))
  | .ok q => (resolve (.ofText text) q d).map (·.mapError .resolve)

/-- The text after a step. -/
def textAfter (text : List Char) : Except StepError Resolution → List Char
  | .error _ => text
  | .ok r => r.span.text

/-- The outcomes of the steps, up to one that stops the program. -/
def hops (d : Dialect) : List Char → List (Except QueryError Query) →
    List (Option (Except StepError Resolution))
  | _, [] => []
  | text, q :: qs =>
      match takeStep text q d with
      | none => [none]
      | some outcome => some outcome :: hops d (textAfter text outcome) qs

end CodeSpan
