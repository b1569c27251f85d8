import CodeSpan.Command.Arguments
import CodeSpan.Display.Report
import CodeSpan.Settings
import CodeSpan.Text.Bytes

/-!
# Running a command

A run reads one file of a workspace. Locating prints a position, extracting prints the block
that starts on a line, and resolving prints a prompt with the block that starts at a name,
after a preview on the error stream, unless it is asked to hand the prompt to the clipboard and
that takes it. A run that fails prints nothing but messages. A run may also stop without an
outcome, where an extraction does.
-/

namespace CodeSpan.Command

/-- The exit code and the text written to each stream. -/
structure Outcome where
  code : Nat
  output : List Char
  messages : List Char
deriving DecidableEq

structure Success where
  output : List Char
  notes : List Line

/-- A fault, and what is to be said before it. -/
structure Failure where
  notes : List Line
  fault : Fault

/-- What is attempted succeeds, fails or stops the program. -/
abbrev Attempt (α : Type) := ExceptT Failure Option α

/-- The clipboard takes a text, or says why it does not. -/
abbrev Clipboard := List Char → Except (List Char) Unit

def orFault {ε α : Type} (wrap : ε → Fault) (r : Except ε α) : Except Failure α :=
  r.mapError fun e => ⟨[], wrap e⟩

def readText? (content : ByteArray) : Option (List Char) :=
  (String.fromUTF8? content).map String.toList

structure Loaded where
  file : FoundFile
  source : Source
  dialect : Dialect

/-- Finds the one file that an input stands for, reads it and chooses its dialect. -/
def load (w : Workspace) (s : Settings) (input : List Char) : Except Failure Loaded :=
  match w.lookupSingle input with
  | .found [f] =>
      match (w.tree.content? f.location).bind readText? with
      | none => .error ⟨[], .unreadable f.display⟩
      | some text => do
          let d ← orFault id (s.dialectFor f.canonical)
          pure ⟨f, .ofText text, d⟩
  | other => .error ⟨other.report input, .notOneFile input⟩

def runLocate (w : Workspace) (s : Settings) (file name : List Char) (hint : Option (List Char))
    (mode : SearchMode) (raw : Bool) : Attempt Success := do
  let l ← load w s file
  let q ← orFault .query (Query.ofText name hint mode)
  match locate? l.source q l.dialect with
  | some p => return ⟨location l.file.display p raw ++ ['\n'], []⟩
  | none => throw ⟨notFoundReport name l.file.display, .resolve (.notFound name)⟩

def runExtract (w : Workspace) (s : Settings) (file : List Char) (line column : Nat) :
    Attempt Success :=
  if line = 0 ∨ column = 0 then throw ⟨[], .zeroPosition⟩
  else do
    let l ← load w s file
    match ← CodeSpan.extract l.source (line - 1) l.dialect with
    | .ok span => return ⟨span.text ++ ['\n'], []⟩
    | .error e => throw ⟨[], .extract e⟩

/-- A prompt is printed unless it is to be copied and the clipboard takes it. -/
def deliver (clipboard : Clipboard) (copy : Bool) (notes : List Line) (prompt : List Char) :
    Success :=
  if copy then
    match clipboard prompt with
    | .ok () => ⟨[], notes ++ copiedReport (Text.byteLength prompt)⟩
    | .error reason => ⟨prompt, notes ++ copyFailedReport reason⟩
  else ⟨prompt, notes⟩

def runResolve (clipboard : Clipboard) (w : Workspace) (s : Settings) (file name : List Char)
    (hint : Option (List Char)) (mode : SearchMode) (purpose : Option (List Char))
    (copy : Bool) : Attempt Success := do
  let l ← load w s file
  let q ← orFault .query (Query.ofText name hint mode)
  match ← CodeSpan.resolve l.source q l.dialect with
  | .ok r =>
      return deliver clipboard copy (preview l.file.display r.span) (prompt purpose r.span.text)
  | .error (.notFound name) =>
      throw ⟨notFoundReport name l.file.display, .resolve (.notFound name)⟩
  | .error e => throw ⟨[], .resolve e⟩

def act (clipboard : Clipboard) (w : Workspace) (s : Settings) : Action → Attempt Success
  | .locate file name hint mode raw => runLocate w s file name hint mode raw
  | .extract file line column => runExtract w s file line column
  | .resolve file name hint mode purpose copy =>
      runResolve clipboard w s file name hint mode purpose copy

/-- Without an option the working directory is the current one. -/
def Request.workspace (r : Request) (tree : Tree) (current : Location) : Workspace :=
  ⟨tree, current, r.options.workspace.getD current.path⟩

def execute (clipboard : Clipboard) (tree : Tree) (current : Location) (r : Request) :
    Attempt Success := do
  let w := r.workspace tree current
  let s ← orFault id (Settings.ofOptions w.directory r.options.dialect r.options.window)
  act clipboard w s r.action

def faultLine (f : Fault) : Line :=
  [.styled .error "error".toList, .plain (": ".toList ++ f.message)]

def programName : Option Verb → List Char
  | none => "span-pick".toList
  | some v => "span-pick-".toList ++ v.name

def usage : List Char :=
  "usage: span-pick <locate|extract|resolve> FILE ...\n".toList

def Outcome.ofResult (colours : Bool) : Except Failure Success → Outcome
  | .ok s => ⟨0, s.output, renderLines colours s.notes⟩
  | .error f => ⟨1, [], renderLines colours (f.notes ++ [faultLine f.fault])⟩

def run (colours : Bool) (clipboard : Clipboard) (tree : Tree) (current : Location)
    (args : List (List Char)) : Option Outcome :=
  match parse args with
  | .error .rejected => some ⟨2, [], usage⟩
  | .error (.version v) => some ⟨0, programName v ++ " 0.1.0\n".toList, []⟩
  | .error (.help _) => some ⟨0, usage, []⟩
  | .ok r => (execute clipboard tree current r).run.map (.ofResult colours)

end CodeSpan.Command
