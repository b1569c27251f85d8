import CodeSpan.Pattern.CharSet

/-!
# Pattern expressions

Expressions match sets of characters, the two ends of a text and the edges of words, and are
combined in sequence, by ordered choice and by repetition. Two repetitions suffice: an
optional part and a part that occurs at least once. All others are built from them.
-/

namespace CodeSpan

inductive Expr where
  | empty
  | set (s : CharSet)
  | textStart
  | textEnd
  | wordEdge
  | notWordEdge
  | seq (p q : Expr)
  | alt (p q : Expr)
  | opt (p : Expr) (isLazy : Bool)
  | plus (p : Expr) (isLazy : Bool)
deriving DecidableEq

namespace Expr

def concat : List Expr → Expr
  | [] => .empty
  | [p] => p
  | p :: q :: rest => .seq p (concat (q :: rest))

def choice : List Expr → Expr
  | [] => .empty
  | [p] => p
  | p :: q :: rest => .alt p (choice (q :: rest))

def star (p : Expr) (isLazy : Bool) : Expr :=
  .opt (.plus p isLazy) isLazy

def times (p : Expr) (n : Nat) : Expr :=
  concat (List.replicate n p)

def upTo (p : Expr) (isLazy : Bool) : Nat → Expr
  | 0 => .empty
  | n + 1 => .opt (.seq p (upTo p isLazy n)) isLazy

/-- At least `min` times, and at most `max` times if there is a bound. -/
def repeated (p : Expr) (min : Nat) (max : Option Nat) (isLazy : Bool) : Expr :=
  match min, max with
  | 0, none => p.star isLazy
  | n + 1, none => .seq (p.times n) (.plus p isLazy)
  | n, some m => .seq (p.times n) (p.upTo isLazy (m - n))

end Expr
end CodeSpan
