/-!
# Styled text

A message is a row of pieces, some of which carry a style. With colours on, a styled piece is
wrapped in escape sequences, even when it is empty; with colours off only the texts remain.
-/

namespace CodeSpan

inductive Colour where
  | red
  | green
  | yellow
  | magenta
  | cyan
  | white
deriving DecidableEq

def Colour.code : Colour → List Char
  | .red => "31".toList
  | .green => "32".toList
  | .yellow => "33".toList
  | .magenta => "35".toList
  | .cyan => "36".toList
  | .white => "37".toList

inductive Weight where
  | bold
  | dim
deriving DecidableEq

def Weight.code : Weight → List Char
  | .bold => "1".toList
  | .dim => "2".toList

structure Style where
  colour : Option Colour
  weight : Option Weight
deriving DecidableEq

namespace Style

def error : Style := ⟨some .red, some .bold⟩

def warning : Style := ⟨some .yellow, none⟩

def success : Style := ⟨some .green, none⟩

def fileName : Style := ⟨some .cyan, some .bold⟩

def metadata : Style := ⟨none, some .dim⟩

def ambiguous : Style := ⟨some .magenta, some .bold⟩

def preview : Style := ⟨some .white, some .dim⟩

end Style

inductive Piece where
  | plain (text : List Char)
  | styled (style : Style) (text : List Char)
deriving DecidableEq

def escapeSequence (code : List Char) : List Char :=
  "\x1b[".toList ++ code ++ ['m']

namespace Piece

def text : Piece → List Char
  | .plain text => text
  | .styled _ text => text

def render (colours : Bool) : Piece → List Char
  | .plain text => text
  | .styled style text =>
      if colours then
        (style.colour.map fun c => escapeSequence c.code).getD [] ++
          (style.weight.map fun w => escapeSequence w.code).getD [] ++ text ++
          escapeSequence ['0']
      else text

@[simp] theorem render_false (p : Piece) : p.render false = p.text := by
  cases p <;> rfl

end Piece

/-- Pieces with a space between each two. -/
def spaced : List Piece → List Piece
  | [] => []
  | [p] => [p]
  | p :: q :: rest => p :: .plain [' '] :: spaced (q :: rest)

abbrev Line := List Piece

def renderLine (colours : Bool) (line : Line) : List Char :=
  line.flatMap (·.render colours) ++ ['\n']

def renderLines (colours : Bool) (lines : List Line) : List Char :=
  lines.flatMap (renderLine colours)

end CodeSpan
