import CodeSpan.Text.Basic
import CodeSpan.Text.Bytes
import CodeSpan.Text.Occurrence

/-!
# Comments, line by line

A scan of consecutive lines is either inside a block comment or outside. A line is a comment,
or code from which comment text is cut off or blanked out byte for byte, so that byte offsets
keep their meaning. At most one pair of block markers counts on a line: the first opening and
the last closing one.
-/

namespace CodeSpan

structure CommentSyntax where
  line : List Char
  blockOpen : List Char
  blockClose : List Char
  /-- Whether a line marker counts right after code, as in `x++;// done`, unless a colon
  precedes it. Otherwise it must follow a blank. -/
  glued : Bool
deriving DecidableEq

inductive Region where
  | outside
  | inside
deriving DecidableEq

inductive LineClass where
  | comment
  | code (text : List Char)
deriving DecidableEq

namespace LineClass

def code? : LineClass → Option (List Char)
  | .comment => none
  | .code text => some text

end LineClass

namespace CommentSyntax

def Delimited (σ : CommentSyntax) : Prop :=
  σ.line ≠ [] ∧ σ.blockOpen ≠ [] ∧ σ.blockClose ≠ []

instance (σ : CommentSyntax) : Decidable σ.Delimited :=
  inferInstanceAs (Decidable (_ ∧ _))

/-- A line marker starts a comment unless a brace follows it, as in an interpolation, or the
character before it speaks against it. -/
def startsLineComment (σ : CommentSyntax) (o : Text.Occurrence) : Bool :=
  o.after.head? != some '\x7b' &&
    match o.before.getLast? with
    | none => false
    | some c => if σ.glued then c != ':' else Text.isBlank c

def cutLineComment (σ : CommentSyntax) (code : List Char) : List Char :=
  match (Text.occurrences σ.line code).find? σ.startsLineComment with
  | some o => o.before
  | none => code

/-- Replaces the characters from `start` to `stop` by as many spaces as they have bytes. -/
def blank (line : List Char) (start stop : Nat) : List Char :=
  line.take start ++
    List.replicate (Text.byteLength ((line.take stop).drop start)) ' ' ++ line.drop stop

def isLineComment (σ : CommentSyntax) (line : List Char) : Bool :=
  Text.startsWith σ.line (Text.trimStart line)

/-- The number of characters before the first opening block marker. -/
def openIndex? (σ : CommentSyntax) (line : List Char) : Option Nat :=
  (Text.firstOccurrence? σ.blockOpen line).map (·.before.length)

/-- The number of characters up to the end of the last closing block marker. -/
def closeIndex? (σ : CommentSyntax) (line : List Char) : Option Nat :=
  (Text.lastOccurrence? σ.blockClose line).map fun o => o.before.length + σ.blockClose.length

/-- An opening block marker outside a comment, unless it stands in a trailing line comment. -/
def enterBlock (σ : CommentSyntax) (line : List Char) (start : Nat) : LineClass × Region :=
  let code := σ.cutLineComment line
  if code.length ≤ start then (.code code, .outside)
  else if Text.isBlankText (line.take start) then (.comment, .inside)
  else (.code (line.take start), .inside)

def classify (σ : CommentSyntax) (r : Region) (line : List Char) : LineClass × Region :=
  if σ.isLineComment line then (.comment, r)
  else match r, σ.openIndex? line, σ.closeIndex? line with
    | .outside, some start, some stop =>
        if start < stop then (.code (σ.cutLineComment (blank line start stop)), .outside)
        else σ.enterBlock line start
    | .inside, some start, some stop =>
        if start < stop then (.comment, .inside) else (.comment, .outside)
    | .outside, some start, none => σ.enterBlock line start
    | .outside, none, _ => (.code (σ.cutLineComment line), .outside)
    | .inside, none, some _ => (.comment, .outside)
    | .inside, _, none => (.comment, .inside)

/-- Every line of a scan with its class and the region after it. -/
def scan (σ : CommentSyntax) : Region → List (List Char) → List (LineClass × Region)
  | _, [] => []
  | r, line :: lines =>
      let step := σ.classify r line
      step :: σ.scan step.2 lines

/-- The classes of consecutive lines scanned from outside any comment. -/
def classes (σ : CommentSyntax) (lines : List (List Char)) : List LineClass :=
  (σ.scan .outside lines).map (·.1)

def regionAfter (σ : CommentSyntax) (r : Region) (lines : List (List Char)) : Region :=
  lines.foldl (fun r line => (σ.classify r line).2) r

@[simp] theorem length_scan (σ : CommentSyntax) (r : Region) (lines : List (List Char)) :
    (σ.scan r lines).length = lines.length := by
  induction lines generalizing r with
  | nil => rfl
  | cons line lines ih => simp [scan, ih]

theorem scan_append (σ : CommentSyntax) (r : Region) (lines more : List (List Char)) :
    σ.scan r (lines ++ more) = σ.scan r lines ++ σ.scan (σ.regionAfter r lines) more := by
  induction lines generalizing r with
  | nil => rfl
  | cons line lines ih => simp [scan, regionAfter, ih]

end CommentSyntax
end CodeSpan
