import CodeSpan.Pattern.Expr
import CodeSpan.Text.Bytes

/-!
# Searching with patterns

A cursor splits a text into what is read and what is left. An expression takes a cursor to
the cursors at which it may stop, the preferred one first and each of them once. A search
takes the leftmost start with a stop, and the preferred stop there. Successive hits do not
overlap, and an empty hit never touches the end of the hit before it.
-/

namespace CodeSpan

/-- A place in a text; what is read is kept nearest first. -/
structure Cursor where
  offset : Nat
  before : List Char
  after : List Char
  offset_eq : offset = Text.byteLength before
deriving DecidableEq

namespace Cursor

def start (s : List Char) : Cursor :=
  ⟨0, [], s, rfl⟩

/-- The place after the next character `x`, with `rest` left. -/
def advance (c : Cursor) (x : Char) (rest : List Char) : Cursor :=
  ⟨x.utf8Size + c.offset, x :: c.before, rest, by simp [c.offset_eq]⟩

def text (c : Cursor) : List Char :=
  c.before.reverse ++ c.after

/-- Exactly one of the neighbouring characters is a word character. -/
def atWordEdge (c : Cursor) : Bool :=
  c.before.head?.any Text.isWord != c.after.head?.any Text.isWord

theorem text_advance {c : Cursor} {x : Char} {rest : List Char} (h : c.after = x :: rest) :
    (c.advance x rest).text = c.text := by
  simp [advance, text, h]

end Cursor

namespace Expr

/-- The stops of any number of further rounds. A round that does not move is dropped, so the
characters left bound the number of rounds. -/
def moreRounds (round : Cursor → List Cursor) (isLazy : Bool) : Nat → Cursor → List Cursor
  | 0, c => [c]
  | fuel + 1, c =>
      let further := ((round c).filter (· ≠ c)).flatMap (moreRounds round isLazy fuel)
      if isLazy then c :: further else further ++ [c]

def stops : Expr → Cursor → List Cursor
  | .empty, c => [c]
  | .set s, c =>
      match c.after with
      | [] => []
      | x :: rest => if s.mem x then [c.advance x rest] else []
  | .textStart, c => if c.before.isEmpty then [c] else []
  | .textEnd, c => if c.after.isEmpty then [c] else []
  | .wordEdge, c => if c.atWordEdge then [c] else []
  | .notWordEdge, c => if c.atWordEdge then [] else [c]
  | .seq p q, c => ((p.stops c).flatMap q.stops).eraseDups
  | .alt p q, c => (p.stops c ++ q.stops c).eraseDups
  | .opt p isLazy, c => (if isLazy then c :: p.stops c else p.stops c ++ [c]).eraseDups
  | .plus p isLazy, c =>
      ((p.stops c).flatMap fun d =>
        if d = c then [c] else moreRounds p.stops isLazy d.after.length d).eraseDups

structure Hit where
  first : Cursor
  last : Cursor

/-- The first hit at the given cursor or later; the list is what the cursor has left. -/
def findFrom? (p : Expr) (c : Cursor) : List Char → Option Hit
  | [] => (p.stops c).head?.map fun d => ⟨c, d⟩
  | x :: rest =>
      match (p.stops c).head? with
      | some d => some ⟨c, d⟩
      | none => p.findFrom? (c.advance x rest) rest

def find? (p : Expr) (s : List Char) : Option Hit :=
  p.findFrom? (.start s) s

def matchesWithin (p : Expr) (s : List Char) : Bool :=
  (p.find? s).isSome

/-- The hit at a cursor, if there is one that counts; `touching` says that a hit ended there. -/
def hitAt? (p : Expr) (touching : Bool) (c : Cursor) : Option Hit :=
  match (p.stops c).head? with
  | none => none
  | some d => if touching && d = c then none else some ⟨c, d⟩

/-- The hits at the given cursor and later, of which `skip` characters still belong to the hit
before; the list is what the cursor has left. -/
def hitsFrom (p : Expr) (c : Cursor) : Nat → Bool → List Char → List Hit
  | _ + 1, _, [] => []
  | skip + 1, _, x :: rest => p.hitsFrom (c.advance x rest) skip true rest
  | 0, touching, [] => (p.hitAt? touching c).toList
  | 0, touching, x :: rest =>
      match p.hitAt? touching c with
      | none => p.hitsFrom (c.advance x rest) 0 false rest
      | some h =>
          let length := h.last.before.length - c.before.length
          h :: p.hitsFrom (c.advance x rest) (length - 1) (0 < length) rest

def hits (p : Expr) (s : List Char) : List Hit :=
  p.hitsFrom (.start s) 0 false s

def countHits (p : Expr) (s : List Char) : Nat :=
  (p.hits s).length

end Expr
end CodeSpan
