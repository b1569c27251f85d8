import CodeSpan.Path
import CodeSpan.Text.Occurrence
import CodeSpan.Workspace.GlobSearch

/-!
# Looking up files

An input names an existing file or directory, or it is a glob pattern, or it is part of the
path of a file below the working directory. The first reading that applies decides. Found
files are shown by their path relative to the working directory.
-/

namespace CodeSpan

/-- A tree, the current directory of the run in it, and the path of the working directory. -/
structure Workspace where
  tree : Tree
  current : Location
  directory : Path

structure FoundFile where
  display : Path
  location : Location
deriving DecidableEq

def FoundFile.canonical (f : FoundFile) : Path :=
  f.location.path

inductive Lookup where
  | found (files : List FoundFile)
  | ambiguous (paths : List Path)
  | notFound
  | missing (path : Path)
  | invalidGlob (e : GlobError)
deriving DecidableEq

def stripFileUri (input : List Char) : List Char :=
  (Text.stripStart? "file://".toList input).getD input

namespace Workspace

def resolve? (w : Workspace) (p : Path) : Option Location :=
  w.tree.resolve? w.current p

def foundFile (w : Workspace) (l : Location) : FoundFile :=
  ⟨(Path.relative? w.directory l.path).getD l.path, l⟩

/-- The files of a directory at any depth, in the order of their displayed paths. -/
def filesOf (w : Workspace) (dir : Location) : List FoundFile :=
  ((w.tree.filesFrom dir).map fun rest => w.foundFile (dir ++ rest)).mergeSort
    fun f g => ¬ Text.Before g.display f.display

/-- The files below the working directory whose relative path contains a text. -/
def filesContaining (w : Workspace) (s : List Char) : List Location :=
  match w.resolve? w.directory with
  | none => []
  | some dir =>
      (w.tree.filesFrom dir).filter fun rest => Text.contains s (List.intercalate ['/'] rest)

def lookupGlob (w : Workspace) (pattern : Path) : Lookup :=
  match Glob.files w.tree w.current pattern with
  | .error e => .invalidGlob e
  | .ok [] => .notFound
  | .ok ls => .found (ls.map w.foundFile)

def lookupFragment (w : Workspace) (s : List Char) : Lookup :=
  match w.filesContaining s with
  | [] => if '/' ∈ s then .missing (Path.join w.directory s) else .notFound
  | [rest] => .found [w.foundFile ((w.resolve? w.directory).getD [] ++ rest)]
  | rests => .ambiguous (rests.map (List.intercalate ['/']))

def lookup (w : Workspace) (input : List Char) : Lookup :=
  let s := stripFileUri input
  let p := Path.join w.directory s
  match w.resolve? p with
  | some l => if w.tree.isFile l then .found [w.foundFile l] else .found (w.filesOf l)
  | none => if Glob.hasWildcard s then w.lookupGlob p else w.lookupFragment s

/-- Like `lookup`, with several files ambiguous and none not found. -/
def lookupSingle (w : Workspace) (input : List Char) : Lookup :=
  match w.lookup input with
  | .found [] => .notFound
  | .found (f :: g :: files) => .ambiguous ((f :: g :: files).map (·.display))
  | other => other

end Workspace
end CodeSpan
