import CodeSpan.Display.Style
import CodeSpan.Text.Quoted
import CodeSpan.Workspace.Lookup
import CodeSpan.Path
import CodeSpan.Source
import CodeSpan.Text.Basic
import CodeSpan.Block

/-!
# Reports, locations and previews

What is said when an input does not lead to one file, when a name does not occur in a file,
and when a prompt was sent to the clipboard.
-/

namespace CodeSpan

def missingReport (input : List Char) (path : Path) : List Line :=
  [spaced [.styled .error ("Path does not exist: '".toList ++ input ++ "'".toList),
    .styled .metadata ("(checked: ".toList ++ Text.quoted path ++ ")".toList)]]

def noMatchReport (input : List Char) : List Line :=
  [[.styled .warning ("No file matches '".toList ++ input ++ "'".toList)]]

def invalidGlobReport (input detail : List Char) : List Line :=
  [spaced [.styled .error ("Invalid glob pattern '".toList ++ input ++ "':".toList),
    .styled .metadata detail]]

def ambiguousReport (input : List Char) (paths : List Path) : List Line :=
  spaced [.styled .ambiguous ("Input '".toList ++ input ++ "' is ambiguous,".toList),
    .styled .metadata "matched:".toList] ::
  paths.map (fun path => .plain "  ".toList ::
    spaced [.styled .metadata "→".toList, .styled .fileName path]) ++
  [[.styled .metadata "Pass a longer path to pick one file.".toList]]

def Lookup.report (input : List Char) : Lookup → List Line
  | .found _ => []
  | .missing path => missingReport input path
  | .notFound => noMatchReport input
  | .invalidGlob e => invalidGlobReport input e.message
  | .ambiguous paths => ambiguousReport input paths

def notFoundReport (name : List Char) (file : Path) : List Line :=
  [spaced [.styled .warning ("'".toList ++ name ++ "' does not occur in".toList),
    .styled .fileName file]]

def copiedReport (size : Nat) : List Line :=
  [[.styled .success "✅".toList, .plain " Prompt copied to clipboard (".toList,
    .styled .metadata (Text.decimal size), .plain " bytes)".toList]]

def copyFailedReport (reason : List Char) : List Line :=
  [[.styled .warning "⚠".toList, .plain " Failed to copy to clipboard: ".toList,
    .styled .warning reason],
  [.plain "   Output printed to stdout instead.".toList]]

/-!
## Locations and prompts

A location is a path with a line and a column, counted from one unless raw numbers are asked
for. A prompt holds a fenced block of code, and before it a fenced purpose if there is one.
-/

def location (file : Path) (p : Position) (raw : Bool) : List Char :=
  if raw then file ++ ':' :: Text.decimal p.line ++ ':' :: Text.decimal p.column
  else file ++ ':' :: p.shown

def fenced (label body : List Char) : List Char :=
  "```".toList ++ label ++ '\n' :: body ++ "\n```\n".toList

def prompt (purpose : Option (List Char)) (code : List Char) : List Char :=
  let purpose := (purpose.map Text.trim).filter fun p => !p.isEmpty
  let lead := match purpose with
    | none => []
    | some p => fenced "purpose".toList p ++ ['\n']
  lead ++ fenced "code".toList (Text.trimEnd code)

/-!
## Previews of blocks

A preview names the file and the range of lines, warns when the block is only a window, and
then shows every line behind its number. Numbers share the width of the largest one, and long
lines are cut.
-/

def previewWidth : Nat := 100

/-- A line of at most `width` characters, or one cut to that width with three dots. -/
def truncate (width : Nat) (line : List Char) : List Char :=
  if line.length ≤ width then line else line.take (width - 3) ++ "...".toList

/-- The file, the numbers of the first and the last line, and how many lines there are. -/
def previewHeader (file : Path) (first last count : Nat) : Line :=
  spaced [.styled .fileName file,
    .styled .metadata ("lines ".toList ++ Text.decimal first ++ '-' :: Text.decimal last ++
      " (".toList ++ Text.decimal count ++ " lines)".toList)]

def windowWarning : Line :=
  spaced [.styled .warning "⚠".toList,
    .styled .warning "no balanced block found; showing a fixed window".toList]

def previewLine (width number : Nat) (line : List Char) : Line :=
  spaced [.styled .metadata (Text.padLeft width (Text.decimal number) ++ "│".toList),
    .styled .preview (truncate previewWidth line)]

def previewBody (width : Nat) (number : Nat) : List (List Char) → List Line
  | [] => []
  | line :: lines => previewLine width number line :: previewBody width (number + 1) lines

def preview (file : Path) (span : BlockSpan) : List Line :=
  let width := (Text.decimal (span.endLine + 1)).length
  previewHeader file (span.startLine + 1) (span.endLine + 1) span.lineCount ::
    (if span.isFallback then [windowWarning] else []) ++
    previewBody width (span.startLine + 1) (List.splitOn '\n' span.text)

end CodeSpan
