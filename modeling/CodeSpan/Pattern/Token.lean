import CodeSpan.Pattern.Expr

/-!
# Tokens of the pattern language

A pattern is first cut into tokens: single characters and classes, assertions, group marks,
bars, repetitions and the switch that ignores case. Punctuation may always be escaped, and
the letters that may follow a backslash are fixed, so that a misspelt escape is an error.
-/

namespace CodeSpan.Pattern

inductive Token where
  | set (s : CharSet)
  | assertion (p : Expr)
  | opening
  | closing
  | bar
  | ignoreCase
  | repetition (min : Nat) (max : Option Nat) (isLazy : Bool)
deriving DecidableEq

def isEscapable (c : Char) : Bool :=
  c.toNat < 0x80 && !c.isAlphanum && c != '<' && c != '>'

/-- The set denoted by a backslash and one character, both inside a class and outside. -/
def escapedSet? (c : Char) : Option CharSet :=
  match c with
  | 'd' => some .decimal
  | 'D' => some (.compl .decimal)
  | 's' => some .blank
  | 'S' => some (.compl .blank)
  | 'w' => some .word
  | 'W' => some (.compl .word)
  | _ => none

def escapedChar? (c : Char) : Option Char :=
  match c with
  | 'n' => some '\n'
  | 't' => some '\t'
  | 'r' => some '\r'
  | 'a' => some '\x07'
  | 'f' => some '\x0c'
  | 'v' => some '\x0b'
  | c => if isEscapable c then some c else none

def escapedAssertion? (c : Char) : Option Expr :=
  match c with
  | 'b' => some .wordEdge
  | 'B' => some .notWordEdge
  | 'A' => some .textStart
  | 'z' => some .textEnd
  | _ => none

def escapedToken? (c : Char) : Option Token :=
  match escapedSet? c with
  | some s => some (.set s)
  | none =>
      match escapedAssertion? c with
      | some p => some (.assertion p)
      | none => (escapedChar? c).map fun d => .set (.single d)

/-- One member of a class: a character, which may start a range, or a whole set. -/
inductive ClassItem where
  | char (c : Char)
  | set (s : CharSet)

def ClassItem.toSet : ClassItem → CharSet
  | .char c => .single c
  | .set s => s

def classItem? : List Char → Option (ClassItem × List Char)
  | [] => none
  | ['\\'] => none
  | '\\' :: c :: s =>
      match escapedSet? c with
      | some t => some (.set t, s)
      | none => (escapedChar? c).map fun d => (.char d, s)
  | c :: s => some (.char c, s)

/-- A range needs a dash that is not the last character of the class. -/
def classRange? (s : List Char) : Option (CharSet × List Char) := do
  let (first, rest) ← classItem? s
  match rest with
  | '-' :: ']' :: _ => some (first.toSet, rest)
  | '-' :: '-' :: _ => some (first.toSet, rest)
  | '-' :: rest' =>
      match first, ← classItem? rest' with
      | .char a, (.char b, rest'') => if a ≤ b then some (.range a b, rest'') else none
      | _, _ => none
  | _ => some (first.toSet, rest)

def unionWith? (acc : Option CharSet) (s : CharSet) : Option CharSet :=
  match acc with
  | none => some s
  | some t => some (.union t s)

/-- Dashes at the start of a class, or else a closing bracket there, stand for themselves. -/
def classStart (s : List Char) : Option CharSet × List Char :=
  match s with
  | '-' :: rest => (some (.single '-'), rest.dropWhile (· = '-'))
  | ']' :: rest => (some (.single ']'), rest)
  | _ => (none, s)

/-- The members of a class up to its closing bracket, added to those in `members`. A bracket
among them opens a class within the class. -/
def classBody? : Nat → Option CharSet × List Char → Option (CharSet × List Char)
  | 0, _ => none
  | fuel + 1, (members, s) =>
      match s with
      | [] => none
      | ']' :: rest => members.map fun t => (t, rest)
      | '[' :: '^' :: rest => do
          let (t, rest') ← classBody? fuel (classStart rest)
          classBody? fuel (unionWith? members (.compl t), rest')
      | '[' :: rest => do
          let (t, rest') ← classBody? fuel (classStart rest)
          classBody? fuel (unionWith? members t, rest')
      | '&' :: '&' :: _ => none
      | '~' :: '~' :: _ => none
      | '-' :: '-' :: _ => none
      | _ => do
          let (t, rest) ← classRange? s
          classBody? fuel (unionWith? members t, rest)

/-- A class after its opening bracket. -/
def class? (s : List Char) : Option (CharSet × List Char) :=
  match s with
  | '^' :: rest => (classBody? s.length (classStart rest)).map fun (t, rest') => (.compl t, rest')
  | _ => classBody? (s.length + 1) (classStart s)

def decimalValue (digits : List Char) : Nat :=
  digits.foldl (fun n d => 10 * n + (d.toNat - '0'.toNat)) 0

/-- A decimal number, with blanks allowed around it. -/
def count? (s : List Char) : Option (Nat × List Char) :=
  let s := Text.trimStart s
  match s.takeWhile Char.isDigit with
  | [] => none
  | digits => some (decimalValue digits, Text.trimStart (s.dropWhile Char.isDigit))

/-- The bounds of a counted repetition, after its opening brace. -/
def bounds? (s : List Char) : Option (Nat × Option Nat × List Char) := do
  let (min, rest) ← count? s
  match rest with
  | '\x7d' :: rest => some (min, some min, rest)
  | ',' :: '\x7d' :: rest => some (min, none, rest)
  | ',' :: rest =>
      match ← count? rest with
      | (max, '\x7d' :: rest) => if min ≤ max then some (min, some max, rest) else none
      | _ => none
  | _ => none

def repetition (min : Nat) (max : Option Nat) : List Char → Token × List Char
  | '?' :: s => (.repetition min max true, s)
  | s => (.repetition min max false, s)

def next? (c : Char) (s : List Char) : Option (Token × List Char) :=
  match c with
  | '\\' =>
      match s with
      | [] => none
      | d :: rest => (escapedToken? d).map fun t => (t, rest)
  | '.' => some (.set .withinLine, s)
  | '^' => some (.assertion .textStart, s)
  | '$' => some (.assertion .textEnd, s)
  | '|' => some (.bar, s)
  | ')' => some (.closing, s)
  | '(' =>
      match s with
      | '?' :: ':' :: rest => some (.opening, rest)
      | '?' :: 'i' :: ')' :: rest => some (.ignoreCase, rest)
      | '?' :: _ => none
      | _ => some (.opening, s)
  | '*' => some (repetition 0 none s)
  | '+' => some (repetition 1 none s)
  | '?' => some (repetition 0 (some 1) s)
  | '\x7b' => (bounds? s).map fun (min, max, rest) => repetition min max rest
  | '[' => (class? s).map fun (t, rest) => (.set t, rest)
  | c => some (.set (.single c), s)

def tokensWithin? : Nat → List Char → Option (List Token)
  | _, [] => some []
  | 0, _ :: _ => none
  | fuel + 1, c :: s => do
      let (t, rest) ← next? c s
      (t :: ·) <$> tokensWithin? fuel rest

/-- Every token takes at least one character, so the length of the text bounds their number. -/
def tokens? (s : List Char) : Option (List Token) :=
  tokensWithin? s.length s

end CodeSpan.Pattern
