import CodeSpan.Pattern.Token

/-!
# Reading patterns

The tokens of a pattern are read from left to right into a stack of open groups. Each group
keeps its finished branches, the items of the branch being read, whether a repetition may
follow, and whether case is ignored. A group that closes becomes one item of the group around
it, and the setting for case ends with the group in which it was made.
-/

namespace CodeSpan.Pattern

/-- An open group; branches and items are kept last first. -/
structure Group where
  branches : List Expr
  items : List Expr
  repeatable : Bool
  ignoresCase : Bool
deriving DecidableEq

namespace Group

def fresh (ignoresCase : Bool) : Group :=
  ⟨[], [], false, ignoresCase⟩

def push (g : Group) (p : Expr) : Group :=
  { g with items := p :: g.items, repeatable := true }

def nextBranch (g : Group) : Group :=
  { g with branches := Expr.concat g.items.reverse :: g.branches, items := [], repeatable := false }

def toExpr (g : Group) : Expr :=
  Expr.choice (Expr.concat g.items.reverse :: g.branches).reverse

/-- Applies a repetition to the last item. -/
def repeatLast? (g : Group) (min : Nat) (max : Option Nat) (isLazy : Bool) : Option Group :=
  match g.repeatable, g.items with
  | true, p :: items => some { g with items := p.repeated min max isLazy :: items }
  | _, _ => none

end Group

structure Reading where
  current : Group
  outer : List Group
deriving DecidableEq

namespace Reading

def start : Reading :=
  ⟨.fresh false, []⟩

def step (r : Reading) (t : Token) : Option Reading :=
  match t with
  | .set s =>
      let s := if r.current.ignoresCase then s.ignoringCase else s
      some { r with current := r.current.push (.set s) }
  | .assertion p => some { r with current := r.current.push p }
  | .bar => some { r with current := r.current.nextBranch }
  | .ignoreCase =>
      some { r with current := { r.current with repeatable := false, ignoresCase := true } }
  | .repetition min max isLazy =>
      (r.current.repeatLast? min max isLazy).map fun g => { r with current := g }
  | .opening => some ⟨.fresh r.current.ignoresCase, r.current :: r.outer⟩
  | .closing =>
      match r.outer with
      | [] => none
      | g :: outer => some ⟨g.push r.current.toExpr, outer⟩

def finish? (r : Reading) : Option Expr :=
  match r.outer with
  | [] => some r.current.toExpr
  | _ :: _ => none

end Reading

/-- The expression written by a text, or nothing if a group, class, escape or repetition in
it is malformed. -/
def read? (s : List Char) : Option Expr := do
  let ts ← tokens? s
  let r ← ts.foldlM Reading.step Reading.start
  r.finish?

end CodeSpan.Pattern
