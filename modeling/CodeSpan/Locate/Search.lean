import CodeSpan.Dialect.Basic
import CodeSpan.Locate.Query
import CodeSpan.Locate.Token
import CodeSpan.Source

/-!
# Locating a name

Candidates come in three tiers: a line that contains the hint, a line with the last part of a
qualified name, and a line with the name itself. An earlier tier beats a later one wherever it
stands, and within a tier the first line wins. Comments never match, and a search for usages
passes over definition lines.
-/

namespace CodeSpan

inductive Tier where
  | hint
  | qualified
  | name
deriving DecidableEq

namespace Tier

def rank : Tier → Nat
  | .hint => 0
  | .qualified => 1
  | .name => 2

def all : List Tier :=
  [.hint, .qualified, .name]

end Tier

structure Candidate where
  line : Nat
  range : ByteRange
  tier : Tier
deriving DecidableEq

/-- A query prepared for the lines of one dialect. -/
structure SearchPlan where
  query : Query
  qualified : Option Qualified
  definition : Option Pattern

namespace SearchPlan

def ofQuery (q : Query) (d : Dialect) : SearchPlan :=
  let qualified := Qualified.split? q.name d.qualifiers
  let leaf := (qualified.map (·.leaf)).getD q.name
  let definition := match q.mode with
    | .declaration => none
    | .usage => definitionPattern? d.definitionKeywords leaf
  ⟨q, qualified, definition⟩

def isDefinition (plan : SearchPlan) (code : List Char) : Bool :=
  plan.definition.any (·.isMatch code)

/-- The byte at an offset of the line is the same in its code. -/
def startsInCode (line code : List Char) (offset : Nat) : Bool :=
  offset < Text.byteLength code && Text.byteAt? line offset == Text.byteAt? code offset

/-- Narrows a place of the hint down to the name inside it. A qualified name must stand there
with its separator; any other name that does not stand there leaves the hint itself. -/
def refineHint? (plan : SearchPlan) (line : List Char) (hint : ByteRange) : Option ByteRange :=
  match plan.qualified with
  | some q => (q.findIn line).find? (·.within hint)
  | none =>
      some (((boundedMatches plan.query.name line).find? (·.within hint)).getD hint)

def matchHint? (plan : SearchPlan) (line code : List Char) : Option ByteRange := do
  let hint ← plan.query.hint
  let places := (boundedMatches hint line).filter fun r => startsInCode line code r.start
  places.findSome? (plan.refineHint? line)

def matchTier? (plan : SearchPlan) (tier : Tier) (line code : List Char) : Option ByteRange :=
  match tier with
  | .hint => plan.matchHint? line code
  | .qualified => plan.qualified.bind fun q => (q.findIn code).head?
  | .name => (boundedMatches plan.query.name code).head?

/-- The best match of a line among the tiers before `ceiling`. -/
def matchLine? (plan : SearchPlan) (ceiling : Option Tier) (line code : List Char) :
    Option (Tier × ByteRange) :=
  let tiers := Tier.all.takeWhile fun t => ceiling.all fun c => t.rank < c.rank
  tiers.findSome? fun t => (plan.matchTier? t line code).map fun r => (t, r)

/-- The best candidate among numbered lines, given the best one before them. -/
def search (plan : SearchPlan) (best : Option Candidate) (i : Nat) :
    List (List Char × LineClass) → Option Candidate
  | [] => best
  | (_, .comment) :: lines => plan.search best (i + 1) lines
  | (line, .code code) :: lines =>
      if plan.isDefinition code then plan.search best (i + 1) lines
      else
        match plan.matchLine? (best.map (·.tier)) line code with
        | none => plan.search best (i + 1) lines
        | some (.hint, r) => some ⟨i, r, .hint⟩
        | some (t, r) => plan.search (some ⟨i, r, t⟩) (i + 1) lines

end SearchPlan

def findCandidate? (t : Source) (q : Query) (d : Dialect) : Option Candidate :=
  (SearchPlan.ofQuery q d).search none 0 (t.lines.zip (d.comments.classes t.lines))

/-- The column of a byte offset, which is the offset itself inside a character. -/
def columnAt (line : List Char) (offset : Nat) : Nat :=
  (Text.charsBefore? line offset).getD offset

def locate? (t : Source) (q : Query) (d : Dialect) : Option Position :=
  (findCandidate? t q d).map fun c =>
    ⟨c.line, columnAt ((t.line? c.line).getD []) c.range.start⟩

end CodeSpan
