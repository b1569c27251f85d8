import CodeSpan.Command.Run

/-!
# The command line

The program reads the names of the files it may need from disk, lets the library decide which
of them is meant, reads that one, and prints what the library answers. Only names below the
working directory, and below the place that the input itself names, are read.
-/

namespace CodeSpan.Command

/-- What a path leads to on disk, and whether it is a directory. -/
structure Found where
  location : Location
  directory : Bool

def locationOf (path : String) : Location :=
  (List.splitOn '/' path.toList).filter (!·.isEmpty)

def treeOf (found : List Found) (content : Location → ByteArray) : Tree :=
  found.foldl (fun t f =>
    let next := if f.directory then t.addDirectory? f.location
      else t.addFile? f.location (content f.location)
    next.getD t) Tree.empty

/-- The part of a path before its first wildcard, up to a separator. -/
def literalHead (p : Path) : Path :=
  if Glob.hasWildcard p then
    let head := p.takeWhile fun c => !Glob.hasWildcard [c]
    (head.reverse.dropWhile (· ≠ '/')).reverse
  else p

/-- The paths under which a command line may look for files. -/
def places (current : Location) (args : List (List Char)) : List Path :=
  match parse args with
  | .error _ => []
  | .ok r =>
      let directory := r.options.workspace.getD current.path
      let p := Path.join directory (stripFileUri r.action.file)
      [directory, p, literalHead p]

/-- The file that a command line reads, given the names on disk. -/
def target? (tree : Tree) (current : Location) (args : List (List Char)) : Option Location :=
  match parse args with
  | .error _ => none
  | .ok r =>
      match (r.workspace tree current).lookupSingle r.action.file with
      | .found [f] => some f.location
      | _ => none

partial def readNames (path : String) : IO (List Found) := do
  let here := System.mkFilePath [path]
  let info ← here.metadata
  match info.type with
  | .dir => do
      let entries ← here.readDir
      let below ← entries.toList.mapM fun e =>
        try readNames e.path.toString catch _ => pure []
      return ⟨locationOf path, true⟩ :: below.flatten
  | .file => return [⟨locationOf path, false⟩]
  | _ => return []

def readPlace (path : Path) : IO (List Found) := do
  try readNames (← IO.FS.realPath (String.ofList path)).toString
  catch _ => return []

def noClipboard : Clipboard :=
  fun _ => .error "there is no clipboard".toList

def runProgram (args : List String) : IO UInt32 := do
  let args := args.map String.toList
  let current := locationOf (← IO.currentDir).toString
  let found := (← (places current args).mapM readPlace).flatten
  let tree := treeOf (⟨current, true⟩ :: found) fun _ => ByteArray.empty
  let tree ← match target? tree current args with
    | none => pure tree
    | some l => do
        let content ← IO.FS.readBinFile (String.ofList l.path)
        pure (treeOf (⟨current, true⟩ :: found) fun m => if m = l then content else .empty)
  match run false noClipboard tree current args with
  | some o =>
      (← IO.getStdout).putStr (String.ofList o.output)
      (← IO.getStderr).putStr (String.ofList o.messages)
      return o.code.toUInt32
  | none =>
      (← IO.getStderr).putStr "a number does not fit in 64 bits\n"
      return 101

end CodeSpan.Command

def main (args : List String) : IO UInt32 :=
  CodeSpan.Command.runProgram args
