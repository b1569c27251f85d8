import CodeSpan.Path
import CodeSpan.Navigation
import CodeSpan.Text.Quoted
import CodeSpan.Dialect.Kind

/-!
# Faults and settings of a run

Everything that ends a run without a result, each with the one line that reports it.
-/

namespace CodeSpan

inductive Fault where
  | zeroWindow
  | zeroPosition
  | unreadable (file : Path)
  | notOneFile (input : List Char)
  | unknownDialect (file : Path)
  | dialect (e : DialectError)
  | query (e : QueryError)
  | extract (e : ExtractError)
  | resolve (e : ResolveError)
deriving DecidableEq

def Fault.message : Fault → List Char
  | .zeroWindow => "Configuration error: fallback window must be at least one line".toList
  | .zeroPosition => "Configuration error: --line and --column are 1-based".toList
  | .unreadable file =>
      "I/O error: Failed to read ".toList ++ file ++
        ": stream did not contain valid UTF-8".toList
  | .notOneFile input =>
      "File resolution failed for input '".toList ++ input ++
        "': expected exactly one source file".toList
  | .unknownDialect file =>
      "no dialect known for ".toList ++ Text.quoted file ++
        "; pass --dialect brace|keyword".toList
  | .dialect e => e.message
  | .query e => e.message
  | .extract e => e.message
  | .resolve e => e.message

/-!
## Settings of a run

A run has a directory in which files are looked up, possibly a dialect that holds for every
file, and possibly a window that replaces the fallback of the dialect. Settings made from options
have a window of at least one line, and no dialect takes a window without lines either.
-/

structure Settings where
  directory : Path
  dialect : Option DialectKind
  window : Option Nat

namespace Settings

def ofOptions (directory : Path) (dialect : Option DialectKind) (window : Option Nat) :
    Except Fault Settings :=
  if window = some 0 then .error .zeroWindow else .ok ⟨directory, dialect, window⟩

/-- The dialect of a file, with the window of the settings if there is one. -/
def dialectFor (s : Settings) (file : Path) : Except Fault Dialect :=
  match s.dialect <|> DialectKind.forPath? file with
  | none => .error (.unknownDialect file)
  | some kind =>
      match s.window with
      | none => .ok kind.dialect
      | some size => (kind.dialect.withFallback (.window size)).mapError .dialect

end Settings
end CodeSpan
