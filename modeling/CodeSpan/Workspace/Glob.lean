import CodeSpan.Text.Basic

/-!
# Glob patterns

A question mark stands for any character, a star for any number of them, and brackets for one
character of a set, or outside it after an exclamation mark. Two stars that fill the space
between separators stand for any depth of directories; any other run of stars is an error, and
so is a bracket that does not close.
-/

namespace CodeSpan

inductive GlobFault where
  | wildcards
  | recursion
  | range
deriving DecidableEq

/-- What is wrong with a pattern and the number of characters before that place. -/
structure GlobError where
  position : Nat
  fault : GlobFault
deriving DecidableEq

def GlobFault.message : GlobFault → List Char
  | .wildcards => "wildcards are either regular `*` or recursive `**`".toList
  | .recursion => "recursive wildcards must form a single path component".toList
  | .range => "invalid range pattern".toList

def GlobError.message (e : GlobError) : List Char :=
  "Pattern syntax error near position ".toList ++ Text.decimal e.position ++ ": ".toList ++
    e.fault.message

inductive GlobToken where
  | char (c : Char)
  | anyChar
  | anyText
  | anyDepth
  | within (ranges : List (Char × Char))
  | outside (ranges : List (Char × Char))
deriving DecidableEq

namespace Glob

def charRanges : List Char → List (Char × Char)
  | a :: '-' :: b :: s => (a, b) :: charRanges s
  | a :: s => (a, a) :: charRanges s
  | [] => []

/-- The text up to a closing bracket that is not the first character, and the text after. -/
def bracketBody? : List Char → Option (List Char × List Char)
  | [] => none
  | c :: s =>
      match s.dropWhile (· ≠ ']') with
      | [] => none
      | _ :: rest => some (c :: s.takeWhile (· ≠ ']'), rest)

/-- A run of stars: one, or two between separators. A separator after two stars is taken too. -/
def stars (position : Nat) (previous : Option Char) (count : Nat) (rest : List Char) :
    Except GlobError (GlobToken × List Char) :=
  if count = 1 then .ok (.anyText, rest)
  else if count ≠ 2 then .error ⟨position + 2, .wildcards⟩
  else if previous.any (· ≠ '/') then .error ⟨position - 1, .recursion⟩
  else match rest with
    | [] => .ok (.anyDepth, [])
    | '/' :: rest => .ok (.anyDepth, rest)
    | _ => .error ⟨position + 2, .recursion⟩

def next (position : Nat) (previous : Option Char) (c : Char) (s : List Char) :
    Except GlobError (GlobToken × List Char) :=
  match c with
  | '?' => .ok (.anyChar, s)
  | '*' =>
      stars position previous ((s.takeWhile (· = '*')).length + 1) (s.dropWhile (· = '*'))
  | '[' =>
      match s with
      | '!' :: body =>
          match bracketBody? body with
          | some (set, rest) => .ok (.outside (charRanges set), rest)
          | none => .error ⟨position, .range⟩
      | body =>
          match bracketBody? body with
          | some (set, rest) => .ok (.within (charRanges set), rest)
          | none => .error ⟨position, .range⟩
  | c => .ok (.char c, s)

def tokensFrom : Nat → Nat → Option Char → List Char → Except GlobError (List GlobToken)
  | _, _, _, [] => .ok []
  | 0, _, _, _ :: _ => .ok []
  | fuel + 1, position, previous, c :: s =>
      match next position previous c s with
      | .error e => .error e
      | .ok (t, rest) =>
          let length := (c :: s).length - rest.length
          match tokensFrom fuel (position + length) ((c :: s).take length).getLast? rest with
          | .error e => .error e
          | .ok ts => .ok (t :: ts)

def tokens (s : List Char) : Except GlobError (List GlobToken) :=
  tokensFrom s.length 0 none s

def inRanges (ranges : List (Char × Char)) (c : Char) : Bool :=
  ranges.any fun r => r.1 ≤ c && c ≤ r.2

def anySuffix (p : List Char → Bool) : List Char → Bool
  | [] => p []
  | c :: s => p (c :: s) || anySuffix p s

def matchesName : List GlobToken → List Char → Bool
  | [], s => s.isEmpty
  | .anyText :: ts, s => anySuffix (matchesName ts) s
  | .anyDepth :: ts, s => anySuffix (matchesName ts) s
  | _ :: _, [] => false
  | .char c :: ts, d :: s => c = d && matchesName ts s
  | .anyChar :: ts, _ :: s => matchesName ts s
  | .within ranges :: ts, d :: s => inRanges ranges d && matchesName ts s
  | .outside ranges :: ts, d :: s => !inRanges ranges d && matchesName ts s

/-- What a pattern says of one name on the way to a file. -/
inductive Part where
  | literal (name : List Char)
  | wildcard (tokens : List GlobToken)
  | anyDepth
deriving DecidableEq

def literal? : List GlobToken → Option (List Char)
  | [] => some []
  | .char c :: ts => (literal? ts).map (c :: ·)
  | _ :: _ => none

def Part.ofTokens (ts : List GlobToken) : Part :=
  match literal? ts with
  | some name => .literal name
  | none => if .anyDepth ∈ ts then .anyDepth else .wildcard ts

def Part.matchesName : Part → List Char → Bool
  | .literal name, s => name = s
  | .wildcard ts, s => Glob.matchesName ts s
  | .anyDepth, _ => false

/-- Any depth twice in a row says no more than once. -/
def collapse : List Part → List Part
  | .anyDepth :: .anyDepth :: ps => collapse (.anyDepth :: ps)
  | p :: ps => p :: collapse ps
  | [] => []

/-- The pieces between separators, without an empty one at the end. -/
def pieces (s : List Char) : List (List Char) :=
  let all := List.splitOn '/' s
  if all.getLast? = some [] then all.dropLast else all

/-- The parts of a pattern, which has to be well formed as a whole and piece by piece. -/
def parts (pattern : List Char) : Except GlobError (List Part) := do
  let _ ← tokens pattern
  let body := if pattern.head? = some '/' then pattern.drop 1 else pattern
  let ts ← (pieces body).mapM tokens
  pure (collapse (ts.map Part.ofTokens))

def hasWildcard (s : List Char) : Bool :=
  s.any fun c => c ∈ "*?[\x7b".toList

end Glob
end CodeSpan
